import BucketTransfer.Proofs.ObjectStore.Memory

/-!
# The states of a store in memory

What a store can have come to, by calls, seeding and faults in any order. Uploads are numbered in
the order in which they were started, so that no upload has the name of one to come.
-/
namespace BucketTransfer.ObjectStore.Memory

/-- The states that a store can come to. -/
inductive Reachable : Memory → Prop where
  | new (endpoint : String) (pageSize : Nat) : Reachable (withPages endpoint pageSize)
  | seeded {m : Memory} (bucket : String) (objects : List (String × Bytes)) (before : Reachable m) :
      Reachable (m.seed bucket objects)
  | hindered {m : Memory} (fault : Fault) (before : Reachable m) : Reachable (m.withFault fault)
  | mended {m : Memory} (before : Reachable m) : Reachable { m with faults := [] }
  | forgotten {m : Memory} (before : Reachable m) : Reachable { m with calls := [] }
  | answered {m : Memory} (r : Request) (before : Reachable m) : Reachable (m.answer r).2

/-- No upload has the number of one that is still to be started. -/
def Numbered (m : Memory) : Prop :=
  ∀ number, m.started < number → m.uploads.get? (uploadId number) = none

variable {m n : Memory}

theorem Alike.numbered (h : m.Alike n) (hm : m.Numbered) : n.Numbered := by
  intro number hlt
  rw [h.uploads]
  exact hm number (h.started ▸ hlt)

theorem numbered_effect (h : m.Numbered) (r : Request) : (m.effect r).2.Numbered := by
  intro number
  cases r with
  | initiateUpload bucket key =>
    simp only [effect]
    split
    · exact h number
    · intro hlt
      have hne : uploadId number ≠ uploadId (m.started + 1) := fun heq =>
        Nat.ne_of_gt hlt (uploadId_inj heq)
      exact (KeyMap.get?_insert_of_ne hne).trans (h number (Nat.lt_of_succ_lt hlt))
  | uploadPart part =>
    simp only [effect]
    split
    · exact h number
    · rename_i pending hpending
      intro hlt
      have hne : uploadId number ≠ part.uploadId := by
        intro heq
        rw [← heq, h number hlt] at hpending
        exact absurd hpending (by simp)
      exact (KeyMap.get?_insert_of_ne hne).trans (h number hlt)
  | completeUpload upload parts =>
    have herase : m.started < number →
        (m.uploads.erase upload.id).get? (uploadId number) = none := by
      intro hlt
      rw [KeyMap.get?_erase, h number hlt, ite_self]
    simp only [effect]
    split
    · exact h number
    · split <;> exact herase
  | abortUpload upload =>
    simp only [effect]
    split
    · intro hlt
      rw [KeyMap.get?_erase, h number hlt, ite_self]
    · exact h number
  | _ =>
    simp only [effect]
    repeat' split
    all_goals exact h number

theorem numbered_answer (h : m.Numbered) (r : Request) : (m.answer r).2.Numbered := by
  obtain ⟨n, halike, -, ⟨e, heq⟩ | heq⟩ := m.answer_cases r
  · rw [heq]
    exact halike.numbered h
  · rw [heq]
    exact numbered_effect (halike.numbered h) r

theorem Reachable.numbered (h : m.Reachable) : m.Numbered := by
  induction h with
  | new endpoint pageSize => exact fun _ _ => rfl
  | seeded bucket objects _ ih => exact ih
  | hindered fault _ ih =>
    rw [withFault]
    split
    · exact ih
    · exact ih
  | mended _ ih => exact ih
  | forgotten _ ih => exact ih
  | answered r _ ih => exact numbered_answer ih r

/-- There is room for an object on a page. -/
theorem Reachable.pageSize_pos (h : m.Reachable) : 0 < m.pageSize := by
  induction h with
  | new endpoint pageSize => exact Nat.lt_of_lt_of_le Nat.one_pos (Nat.le_max_right ..)
  | seeded bucket objects _ ih => exact ih
  | hindered fault _ ih =>
    rw [withFault]
    split
    · exact ih
    · exact ih
  | mended _ ih => exact ih
  | forgotten _ ih => exact ih
  | answered r _ ih => rwa [pageSize_answer]

end BucketTransfer.ObjectStore.Memory
