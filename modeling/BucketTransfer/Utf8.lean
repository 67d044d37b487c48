/-!
# Bytes and UTF-8

Content is a list of bytes. A text is encoded character by character; decoding refuses what no text
encodes to and says where the first such place is and how many bytes of it are wrong.
-/
namespace BucketTransfer

/-- Content, as its bytes in order. -/
abbrev Bytes := List UInt8

namespace Utf8

/-- The encoding of a text. -/
def encode (cs : List Char) : Bytes := cs.flatMap String.utf8EncodeChar

/-- Why bytes encode no text: a wrong sequence, or one that the end cuts short. -/
inductive Fault where
  | invalid (index length : Nat)
  | incomplete (index : Nat)
  deriving DecidableEq, Repr

def Fault.message : Fault → String
  | .invalid index length => s!"invalid utf-8 sequence of {length} bytes from index {index}"
  | .incomplete index => s!"incomplete utf-8 byte sequence from index {index}"

/-- A byte that continues a character. -/
def continues (b : UInt8) : Bool := decide (0x80 ≤ b) && decide (b ≤ 0xbf)

/-- What the first byte of a character of three or four bytes allows as its second, so that every
character has one encoding and none is a surrogate or too large. -/
def allowsSecond (first second : UInt8) : Bool :=
  if first = 0xe0 then decide (0xa0 ≤ second) && decide (second ≤ 0xbf)
  else if first = 0xed then decide (0x80 ≤ second) && decide (second ≤ 0x9f)
  else if first = 0xf0 then decide (0x90 ≤ second) && decide (second ≤ 0xbf)
  else if first = 0xf4 then decide (0x80 ≤ second) && decide (second ≤ 0x8f)
  else continues second

/-- Decodes from a position on; `done` holds the characters before it, last first. -/
def decodeFrom (index : Nat) (done : List Char) : Bytes → Except Fault (List Char)
  | [] => .ok done.reverse
  | a :: rest =>
    if a < 0x80 then decodeFrom (index + 1) (Char.ofNat a.toNat :: done) rest
    else if a < 0xc2 then .error (.invalid index 1)
    else if a < 0xe0 then
      match rest with
      | [] => .error (.incomplete index)
      | b :: rest =>
        if continues b then
          decodeFrom (index + 2) (Char.ofNat (a.toNat % 32 * 64 + b.toNat % 64) :: done) rest
        else .error (.invalid index 1)
    else if a < 0xf0 then
      match rest with
      | [] => .error (.incomplete index)
      | b :: rest =>
        if !allowsSecond a b then .error (.invalid index 1)
        else match rest with
          | [] => .error (.incomplete index)
          | c :: rest =>
            if continues c then
              decodeFrom (index + 3)
                (Char.ofNat (a.toNat % 16 * 4096 + b.toNat % 64 * 64 + c.toNat % 64) :: done) rest
            else .error (.invalid index 2)
    else if a < 0xf5 then
      match rest with
      | [] => .error (.incomplete index)
      | b :: rest =>
        if !allowsSecond a b then .error (.invalid index 1)
        else match rest with
          | [] => .error (.incomplete index)
          | c :: rest =>
            if !continues c then .error (.invalid index 2)
            else match rest with
              | [] => .error (.incomplete index)
              | d :: rest =>
                if continues d then
                  decodeFrom (index + 4)
                    (Char.ofNat (a.toNat % 8 * 262144 + b.toNat % 64 * 4096 + c.toNat % 64 * 64
                      + d.toNat % 64) :: done) rest
                else .error (.invalid index 3)
    else .error (.invalid index 1)

/-- The text that bytes encode. -/
def decode (bytes : Bytes) : Except Fault (List Char) := decodeFrom 0 [] bytes

/-- The text that bytes encode, if they do. -/
def decode? (bytes : Bytes) : Option String := (decode bytes).toOption.map String.ofList

/-- The text that bytes encode, with a mark in place of each sequence that encodes nothing. -/
def lossy (bytes : Bytes) : List Char :=
  let before (index : Nat) : List Char := (decode (bytes.take index)).toOption.getD []
  match decode bytes with
  | .ok cs => cs
  | .error (.incomplete index) => before index ++ ['\ufffd']
  | .error (.invalid index length) =>
    before index ++ '\ufffd' ::
      if _ : (bytes.drop (index + length)).length < bytes.length then
        lossy (bytes.drop (index + length))
      else []
termination_by bytes.length
decreasing_by assumption

end Utf8

/-- The bytes of a text. -/
def utf8 (s : String) : Bytes := Utf8.encode s.toList

end BucketTransfer
