import BucketTransfer.Utf8

/-!
# Streams of bytes

A stream hands out its bytes in pieces, of any size, and ends or fails after the last one. What a
reader gets of it does not depend on where one piece ends and the next begins.
-/
namespace BucketTransfer

structure ByteStream where
  pieces : List Bytes
  failure : Option String := none
  deriving DecidableEq, Repr

namespace ByteStream

def ofBytes (content : Bytes) : ByteStream := ⟨[content], none⟩

/-- Content in pieces of `size` bytes, the last one perhaps smaller; without pieces of no bytes. -/
def piecesOf (size : Nat) (content : Bytes) : List Bytes :=
  if _ : content = [] ∨ size = 0 then [] else content.take size :: piecesOf size (content.drop size)
termination_by content.length
decreasing_by
  have : 0 < content.length := List.length_pos_iff.2 (by grind)
  simp only [List.length_drop]
  omega

/-- Content that is handed out `size` bytes at a time. -/
def ofPieces (size : Nat) (content : Bytes) : ByteStream := ⟨piecesOf size content, none⟩

/-- All bytes, or why they cannot be read. -/
def content (s : ByteStream) : Except String Bytes :=
  match s.failure with
  | none => .ok s.pieces.flatten
  | some message => .error message

/-- Takes bytes off pieces until there are `size`; nothing is left if there are too few. -/
def takeFrom : (size : Nat) → List Bytes → Bytes × List Bytes
  | _, [] => ([], [])
  | size, piece :: rest =>
    let front := piece.take size
    if front.length < size then
      let (taken, left) := takeFrom (size - front.length) rest
      (front ++ taken, left)
    else (front, piece.drop size :: rest)

/-- Reads a chunk, of `size` bytes unless the stream ends. A failure that lies behind the chunk is
not met. -/
def read (s : ByteStream) (size : Nat) : Except String (Bytes × ByteStream) :=
  let (chunk, pieces) := takeFrom size s.pieces
  match s.failure with
  | none => .ok (chunk, ⟨pieces, none⟩)
  | some message =>
    if chunk.length < size then .error message else .ok (chunk, ⟨pieces, some message⟩)

end ByteStream

end BucketTransfer
