import BucketTransfer.ByteStream

/-!
# Chunks of a stream

Reading a stream chunk by chunk cuts its bytes at the multiples of the size, wherever its pieces
begin and end, and stops after a number of chunks that only the number of bytes decides.
-/
namespace BucketTransfer.ByteStream

/-- The bytes that a stream hands out before it ends or fails. -/
def bytes (s : ByteStream) : Bytes := s.pieces.flatten

/-- The chunk with a number, from 1: the bytes from `(number - 1) * size` on, up to `number * size`
or to the end. -/
def chunk (size number : Nat) (content : Bytes) : Bytes :=
  content.extract ((number - 1) * size) (min (number * size) content.length)

/-- How many chunks there are before a stream ends or fails. One that ends without a byte has one,
which is empty; one that fails has those that are whole. -/
def chunks (s : ByteStream) (size : Nat) : Nat :=
  match s.failure with
  | none => max 1 ((s.bytes.length + size - 1) / size)
  | some _ => s.bytes.length / size

theorem chunk_succ (size number : Nat) (content : Bytes) :
    chunk size (number + 1) content = (content.drop (number * size)).take size := by
  rw [chunk, List.extract_eq_take_drop, Nat.add_sub_cancel, List.take_eq_take_iff, List.length_drop,
    Nat.succ_mul]
  omega

/-- Chunks that are whole up to some number make up all bytes before it. -/
theorem flatten_chunks (size : Nat) (content : Bytes) (n : Nat) :
    ((List.range n).map fun i => chunk size (i + 1) content).flatten = content.take (n * size) := by
  induction n with
  | zero => simp
  | succ n ih =>
    rw [List.range_succ, List.map_append, List.flatten_append, ih, Nat.succ_mul, List.take_add]
    simp [chunk_succ]

private theorem takeFrom_spec (size : Nat) (pieces : List Bytes) :
    (takeFrom size pieces).1 = pieces.flatten.take size ∧
      (takeFrom size pieces).2.flatten = pieces.flatten.drop size := by
  induction pieces generalizing size with
  | nil => simp [takeFrom]
  | cons piece rest ih =>
    simp only [takeFrom, List.length_take]
    split
    · rename_i hshort
      have hle : piece.length ≤ size := by omega
      obtain ⟨hfront, hleft⟩ := ih (size - min size piece.length)
      simp only [hfront, hleft, List.flatten_cons, List.take_append, List.drop_append]
      rw [Nat.min_eq_right hle, List.drop_eq_nil_of_le hle]
      exact ⟨rfl, rfl⟩
    · rename_i hfull
      have hle : size ≤ piece.length := by omega
      simp [List.take_append_of_le_length hle, List.drop_append_of_le_length hle]

variable {s whole rest : ByteStream} {size count : Nat} {piece : Bytes}

theorem lt_chunks_of_ends (hsize : 0 < size) (h : s.failure = none) :
    count < s.chunks size ↔ count = 0 ∨ count * size < s.bytes.length := by
  have hdiv : count < (s.bytes.length + size - 1) / size ↔
      count * size + size ≤ s.bytes.length + size - 1 := by
    rw [Nat.lt_iff_add_one_le, Nat.le_div_iff_mul_le hsize, Nat.succ_mul]
  simp only [chunks, h]
  omega

theorem lt_chunks_of_fails {message : String} (hsize : 0 < size) (h : s.failure = some message) :
    count < s.chunks size ↔ (count + 1) * size ≤ s.bytes.length := by
  simp only [chunks, h, Nat.lt_iff_add_one_le, Nat.le_div_iff_mul_le hsize]

/-- Where a stream stands of which some chunks were read, all of them whole. -/
structure Past (whole : ByteStream) (size count : Nat) (s : ByteStream) : Prop where
  bytes_eq : s.bytes = whole.bytes.drop (count * size)
  failure_eq : s.failure = whole.failure
  count_le : count * size ≤ whole.bytes.length

namespace Past

theorem zero (s : ByteStream) (size : Nat) : Past s size 0 s := ⟨by simp, rfl, by simp⟩

theorem length_bytes (h : Past whole size count s) :
    s.bytes.length = whole.bytes.length - count * size := by
  rw [h.bytes_eq, List.length_drop]

/-- A failure is met after the last whole chunk. -/
theorem of_read_error (h : Past whole size count s) {message : String}
    (hread : s.read size = .error message) :
    whole.failure = some message ∧ count = whole.chunks size := by
  simp only [read] at hread
  split at hread
  · exact absurd hread (by simp)
  · rename_i m hm
    split at hread
    · rename_i hshort
      obtain rfl : m = message := by simpa using hread
      rw [h.failure_eq] at hm
      refine ⟨hm, ?_⟩
      rw [(takeFrom_spec size s.pieces).1, List.length_take, ← bytes, h.length_bytes] at hshort
      simp only [chunks, hm]
      refine (Nat.div_eq_of_lt_le h.count_le ?_).symm
      rw [Nat.succ_mul]
      omega
    · exact absurd hread (by simp)

/-- What is read is the next chunk, and it is whole if the stream will fail. -/
theorem of_read (h : Past whole size count s) (hread : s.read size = .ok (piece, rest)) :
    piece = chunk size (count + 1) whole.bytes ∧
      rest.bytes = whole.bytes.drop ((count + 1) * size) ∧ rest.failure = whole.failure ∧
      (whole.failure = none ∨ size ≤ piece.length) := by
  have htaken : (takeFrom size s.pieces).1 = chunk size (count + 1) whole.bytes := by
    rw [(takeFrom_spec size s.pieces).1, chunk_succ, ← h.bytes_eq, bytes]
  have hleft : (takeFrom size s.pieces).2.flatten = whole.bytes.drop ((count + 1) * size) := by
    rw [(takeFrom_spec size s.pieces).2, ← bytes, h.bytes_eq, List.drop_drop, Nat.succ_mul]
  simp only [read] at hread
  split at hread
  · rename_i hnone
    obtain ⟨rfl, rfl⟩ := Prod.mk.inj (Except.ok.inj hread)
    rw [h.failure_eq] at hnone
    exact ⟨htaken, hleft, hnone.symm, .inl hnone⟩
  · rename_i m hm
    split at hread
    · exact absurd hread (by simp)
    · rename_i hfull
      obtain ⟨rfl, rfl⟩ := Prod.mk.inj (Except.ok.inj hread)
      rw [h.failure_eq] at hm
      exact ⟨htaken, hleft, hm.symm, .inr (Nat.le_of_not_lt hfull)⟩

theorem length_of_read (h : Past whole size count s) (hread : s.read size = .ok (piece, rest)) :
    piece.length = min size (whole.bytes.length - count * size) := by
  rw [(h.of_read hread).1, chunk_succ, List.length_take, List.length_drop]

/-- The chunk that is read is one of the stream unless nothing is left after others. -/
theorem lt_chunks (h : Past whole size count s) (hsize : 0 < size)
    (hread : s.read size = .ok (piece, rest)) (hsome : piece ≠ [] ∨ count = 0) :
    count < whole.chunks size := by
  have hlen := h.length_of_read hread
  have hpos : 0 < piece.length ↔ piece ≠ [] := List.length_pos_iff
  cases hfailure : whole.failure with
  | none =>
    rw [lt_chunks_of_ends hsize hfailure]
    rcases hsome with hne | h0
    · have := hpos.2 hne
      omega
    · exact .inl h0
  | some message =>
    have hfull : size ≤ piece.length := by simpa [hfailure] using (h.of_read hread).2.2.2
    rw [lt_chunks_of_fails hsize hfailure, Nat.succ_mul]
    omega

/-- After a chunk that is not whole the stream is at its end. -/
theorem of_short (h : Past whole size count s) (hsize : 0 < size)
    (hread : s.read size = .ok (piece, rest)) (hshort : piece.length < size) :
    whole.failure = none ∧ whole.chunks size ≤ count + 1 ∧
      whole.bytes.length = count * size + piece.length := by
  have hlen := h.length_of_read hread
  have hle := h.count_le
  have hfailure : whole.failure = none :=
    (h.of_read hread).2.2.2.resolve_right (Nat.not_le_of_lt hshort)
  refine ⟨hfailure, ?_, by omega⟩
  rw [← Nat.not_lt, lt_chunks_of_ends hsize hfailure, Nat.succ_mul]
  omega

theorem of_whole (h : Past whole size count s) (hread : s.read size = .ok (piece, rest))
    (hwhole : ¬piece.length < size) : Past whole size (count + 1) rest := by
  obtain ⟨-, hbytes, hfailure, -⟩ := h.of_read hread
  refine ⟨hbytes, hfailure, ?_⟩
  have hlen := h.length_of_read hread
  have hle := h.count_le
  rw [Nat.succ_mul]
  omega

/-- After chunks that are all whole the stream ends with the last of them if nothing is left. -/
theorem of_empty (h : Past whole size count s) (hsize : 0 < size) (hcount : 0 < count)
    (hread : s.read size = .ok ([], rest)) :
    whole.failure = none ∧ count = whole.chunks size ∧ whole.bytes.length = count * size := by
  obtain ⟨hfailure, -, hlen⟩ := h.of_short hsize hread hsize
  have hend : whole.bytes.length = count * size := by simpa using hlen
  refine ⟨hfailure, ?_, hend⟩
  obtain ⟨n, rfl⟩ : ∃ n, count = n + 1 := ⟨count - 1, by omega⟩
  have hlast : n < whole.chunks size := by
    rw [lt_chunks_of_ends hsize hfailure, hend, Nat.succ_mul]
    omega
  have hnot : ¬n + 1 < whole.chunks size := by
    rw [lt_chunks_of_ends hsize hfailure, hend]
    omega
  omega

end Past

end BucketTransfer.ByteStream
