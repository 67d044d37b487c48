import BucketTransfer.Proofs.ByteStream.Chunks
import BucketTransfer.Proofs.ObjectStore.Memory

/-!
# Putting chunks together

The parts of an upload that were sent in order under the numbers from 1 on make up the content that
they were cut from.
-/
namespace BucketTransfer.ObjectStore.Memory
open ByteStream (chunk flatten_chunks)

variable {m : Memory} {size count : Nat} {content : Bytes}

/-- The first chunks of a content under their numbers. -/
def numbered (size : Nat) (content : Bytes) (count : Nat) : List (Nat × Bytes) :=
  (List.range' 1 count).map fun n => (n, chunk size n content)

/-- What a store answers to chunks from a number on. -/
def receipts (size : Nat) (content : Bytes) (first count : Nat) : List CompletedPart :=
  (List.range' first count).map fun n => ⟨n, etagOf (chunk size n content)⟩

theorem numbered_succ (size : Nat) (content : Bytes) (count : Nat) :
    (numbered size content (count + 1)).reverse =
      (count + 1, chunk size (count + 1) content) :: (numbered size content count).reverse := by
  rw [numbered, List.range'_concat, List.map_append, List.reverse_append, Nat.one_mul,
    Nat.add_comm 1 count]
  rfl

theorem receipts_succ (size : Nat) (content : Bytes) (first count : Nat) :
    receipts size content first (count + 1) =
      ⟨first, etagOf (chunk size first content)⟩ :: receipts size content (first + 1) count := by
  rw [receipts, List.range'_succ]
  rfl

@[simp] theorem length_receipts (size : Nat) (content : Bytes) (first count : Nat) :
    (receipts size content first count).length = count := by simp [receipts]

theorem eq_receipts {first : Nat} {done : List CompletedPart}
    (h : ∀ part number, (part, number) ∈ done.zipIdx first →
      part = ⟨number, etagOf (chunk size number content)⟩) :
    done = receipts size content first done.length := by
  induction done generalizing first with
  | nil => rfl
  | cons part done ih =>
    have hpart := h part first (by simp)
    have hrest := ih fun other number hmem =>
      h other number (by rw [List.zipIdx_cons]; exact List.mem_cons_of_mem _ hmem)
    rw [List.length_cons, receipts_succ, ← hrest, hpart]

private theorem ascending_receipts (size : Nat) (content : Bytes) (first count : Nat) :
    ascending (receipts size content first count) = true := by
  induction count generalizing first with
  | zero => rfl
  | succ count ih =>
    have hrest := ih (first + 1)
    rw [receipts_succ]
    cases count with
    | zero => rfl
    | succ count =>
      rw [receipts_succ] at hrest ⊢
      simpa [ascending] using hrest

private theorem lookup_map {β : Type} (f : Nat → β) {numbers : List Nat} {n : Nat}
    (h : n ∈ numbers) : (numbers.map fun n => (n, f n)).lookup n = some (f n) := by
  induction numbers with
  | nil => simp at h
  | cons i rest ih =>
    rw [List.map_cons, List.lookup_cons]
    by_cases hi : n = i
    · simp [hi]
    · have hne : (n == i) = false := by simpa using hi
      rw [hne]
      exact ih (List.mem_of_ne_of_mem hi h)

private theorem assemble_of_lookup {pending : Pending} (f : Nat → Bytes) {numbers : List Nat}
    (h : ∀ n ∈ numbers, pending.parts.lookup n = some (f n)) :
    assemble pending (numbers.map fun n => ⟨n, etagOf (f n)⟩) = .ok (numbers.map f).flatten := by
  induction numbers with
  | nil => rfl
  | cons n rest ih =>
    obtain ⟨hn, hrest⟩ := List.forall_mem_cons.1 h
    rw [List.map_cons, assemble, hn, ih hrest]
    simp [Except.map, Option.filter]

/-- The parts make up all that was cut into them. -/
theorem content_of_numbered {upload : Upload} (hcount : 0 < count)
    (h : m.uploads.get? upload.id =
      some ⟨upload.bucket, upload.key, (numbered size content count).reverse⟩) :
    m.content upload (receipts size content 1 count) = .ok (content.take (count * size)) := by
  have hassemble : assemble ⟨upload.bucket, upload.key, (numbered size content count).reverse⟩
      (receipts size content 1 count) =
        .ok ((List.range' 1 count).map fun n => chunk size n content).flatten := by
    refine assemble_of_lookup (fun n => chunk size n content) fun n hn => ?_
    rw [numbered, ← List.map_reverse]
    exact lookup_map _ (List.mem_reverse.2 hn)
  have hsome : (receipts size content 1 count).isEmpty = false := by
    rw [List.isEmpty_eq_false_iff, ← List.length_pos_iff, length_receipts]
    exact hcount
  have hflatten : ((List.range' 1 count).map fun n => chunk size n content).flatten =
      content.take (count * size) := by
    rw [← flatten_chunks, List.range'_eq_map_range, List.map_map]
    simp only [Function.comp_def, Nat.add_comm 1]
  simp only [Memory.content, h, ascending_receipts, hsome, hassemble, hflatten]
  simp

end BucketTransfer.ObjectStore.Memory
