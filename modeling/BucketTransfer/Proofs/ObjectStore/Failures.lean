import BucketTransfer.Proofs.ObjectStore.Reachable

/-!
# Calls that fail

A call that fails changes nothing but the log and the faults, unless it completes an upload whose
bucket is gone: such an upload is given up although it is not completed. An upload can only come to
this if its bucket is deleted while it is pending.
-/
namespace BucketTransfer.ObjectStore.Memory

/-- The request completes an upload with parts that fit, and the bucket of the upload is gone. -/
inductive Strands (m : Memory) : Request → Prop where
  | complete {upload : Upload} {parts : List CompletedPart} {body : Bytes}
      (unhindered : (Fault.meet .completeUpload m.faults).1 = none)
      (fits : m.content upload parts = .ok body) (gone : m.buckets.get? upload.bucket = none) :
      Strands m (.completeUpload upload parts)

/-- The request deletes no bucket that an upload is pending for. -/
def Spares (m : Memory) (r : Request) : Prop :=
  ∀ bucket, r = .deleteBucket bucket →
    ∀ id pending, m.uploads.get? id = some pending → pending.bucket ≠ bucket

/-- The states that a store can come to if no bucket is deleted while an upload is pending for it.
-/
inductive Orderly : Memory → Prop where
  | new (endpoint : String) (pageSize : Nat) : Orderly (withPages endpoint pageSize)
  | seeded {m : Memory} (bucket : String) (objects : List (String × Bytes)) (before : Orderly m) :
      Orderly (m.seed bucket objects)
  | hindered {m : Memory} (fault : Fault) (before : Orderly m) : Orderly (m.withFault fault)
  | mended {m : Memory} (before : Orderly m) : Orderly { m with faults := [] }
  | forgotten {m : Memory} (before : Orderly m) : Orderly { m with calls := [] }
  | answered {m : Memory} (r : Request) (before : Orderly m) (spares : m.Spares r) :
      Orderly (m.answer r).2

/-- The bucket of each pending upload is there. -/
def Housed (m : Memory) : Prop :=
  ∀ id pending, m.uploads.get? id = some pending → (m.buckets.get? pending.bucket).isSome

variable {m n : Memory} {r : Request} {e : Error}

/-! ## Uploads and their buckets -/

/-- An upload is pending for the bucket that it was started for, which was there at the time. -/
theorem pending_effect {id : String} {pending : Pending}
    (h : (m.effect r).2.uploads.get? id = some pending) :
    (∃ before, m.uploads.get? id = some before ∧ before.bucket = pending.bucket) ∨
      (m.buckets.get? pending.bucket).isSome ∧ (m.effect r).2.buckets = m.buckets := by
  have herase : ∀ gone, (m.uploads.erase gone).get? id = some pending →
      m.uploads.get? id = some pending := by
    intro gone h
    rw [KeyMap.get?_erase] at h
    split at h
    · exact absurd h (by simp)
    · exact h
  cases r with
  | initiateUpload bucket key =>
    simp only [effect] at h ⊢
    split at h
    · exact .inl ⟨pending, h, rfl⟩
    · rename_i objects hobjects
      simp only [KeyMap.get?_insert] at h
      split at h
      · obtain rfl := Option.some.inj h
        exact .inr ⟨by rw [hobjects]; rfl, rfl⟩
      · exact .inl ⟨pending, h, rfl⟩
  | uploadPart part =>
    simp only [effect] at h
    split at h
    · exact .inl ⟨pending, h, rfl⟩
    · rename_i before hbefore
      simp only [KeyMap.get?_insert] at h
      split at h
      · rename_i hid
        obtain rfl := Option.some.inj h
        exact .inl ⟨before, hid ▸ hbefore, rfl⟩
      · exact .inl ⟨pending, h, rfl⟩
  | completeUpload upload parts =>
    refine .inl ⟨pending, ?_, rfl⟩
    simp only [effect] at h
    repeat' split at h
    · exact h
    · exact herase _ h
    · exact herase _ h
  | abortUpload upload =>
    refine .inl ⟨pending, ?_, rfl⟩
    simp only [effect] at h
    split at h
    · exact herase _ h
    · exact h
  | _ =>
    refine .inl ⟨pending, ?_, rfl⟩
    simp only [effect] at h
    repeat' split at h
    all_goals exact h

theorem Housed.effect (h : m.Housed) (hr : m.Spares r) : (m.effect r).2.Housed := by
  intro id pending hpending
  rcases pending_effect hpending with ⟨before, hbefore, hbucket⟩ | ⟨hbucket, hsame⟩
  · rw [← hbucket]
    refine isSome_bucket_effect (h id before hbefore) fun heq => ?_
    exact hr _ heq id before hbefore rfl
  · rwa [hsame]

theorem Housed.answer (h : m.Housed) (hr : m.Spares r) : (m.answer r).2.Housed :=
  keeps_answer (P := Housed) h fun hentered => hentered.effect hr

theorem Orderly.housed (h : m.Orderly) : m.Housed := by
  induction h with
  | new endpoint pageSize => exact fun id pending hpending => absurd hpending (by simp [withPages])
  | @seeded m bucket objects _ ih =>
    intro id pending hpending
    simp only [seed, KeyMap.get?_insert]
    split
    · rfl
    · exact ih id pending hpending
  | hindered fault _ ih =>
    rw [withFault]
    split
    · exact ih
    · exact ih
  | mended _ ih => exact ih
  | forgotten _ ih => exact ih
  | answered r _ spares ih => exact ih.answer spares

/-! ## Failures -/

theorem exists_pending_of_content {upload : Upload} {parts : List CompletedPart} {body : Bytes}
    (h : m.content upload parts = .ok body) :
    ∃ pending, m.uploads.get? upload.id = some pending ∧ pending.bucket = upload.bucket := by
  obtain ⟨pending, hpending, hbucket, -⟩ := content_eq_ok.1 h
  exact ⟨pending, hpending, hbucket⟩

theorem Housed.not_strands (h : m.Housed) : ¬m.Strands r := by
  rintro ⟨-, fits, gone⟩
  obtain ⟨pending, hpending, hbucket⟩ := exists_pending_of_content fits
  have hsome := h _ pending hpending
  rw [hbucket, gone] at hsome
  exact absurd hsome (by simp)

private theorem answer_of_strands (h : m.Strands r) : ∃ upload parts,
    r = .completeUpload upload parts ∧
      m.answer r = (.error (noSuchBucket upload.bucket),
        { m.entered r with uploads := m.uploads.erase upload.id }) := by
  obtain @⟨upload, parts, body, unhindered, fits, gone⟩ := h
  have hfits : (m.entered (.completeUpload upload parts)).content upload parts = .ok body := fits
  have hgone : (m.entered (.completeUpload upload parts)).buckets.get? upload.bucket = none := gone
  refine ⟨upload, parts, rfl, ?_⟩
  rw [answer_of_passed (r := .completeUpload upload parts) unhindered]
  simp only [effect, hfits, hgone]
  rfl

private theorem eq_entered_of_not_strands (h : m.answer r = (.error e, n)) (hr : ¬m.Strands r) :
    n = m.entered r := by
  cases hfault : (Fault.meet r.operation m.faults).1 with
  | some cause =>
    rw [answer_of_fault hfault] at h
    exact (congrArg Prod.snd h).symm
  | none =>
    rw [answer_of_passed hfault] at h
    rcases effect_error h with heq | ⟨upload, parts, body, rfl, hfits, hgone, -⟩
    · exact heq
    · exact absurd (.complete hfault hfits hgone) hr

/-- A call that fails changes nothing but the log and the faults, exactly unless it completes an
upload, with parts that fit, whose bucket is gone. Then it fails for the missing bucket, and the
upload is gone with its parts; all buckets and all other uploads are as before. If no bucket was
ever deleted while an upload was pending for it, nothing of the kind happens. -/
theorem unchanged_of_failure (h : m.answer r = (.error e, n)) :
    n.buckets = m.buckets ∧ (n = m.entered r ↔ ¬m.Strands r) ∧
      (m.Strands r → ∃ upload parts, r = .completeUpload upload parts ∧
        e = noSuchBucket upload.bucket ∧ (m.uploads.get? upload.id).isSome ∧
          n = { m.entered r with uploads := m.uploads.erase upload.id }) ∧
      (m.Orderly → n = m.entered r) := by
  have hstranded : m.Strands r → ∃ upload parts, r = .completeUpload upload parts ∧
      e = noSuchBucket upload.bucket ∧ (m.uploads.get? upload.id).isSome ∧
        n = { m.entered r with uploads := m.uploads.erase upload.id } := by
    intro hr
    obtain ⟨upload, parts, rfl, hanswer⟩ := answer_of_strands hr
    obtain ⟨he, hn⟩ := Prod.mk.inj (h.symm.trans hanswer)
    cases hr with
    | complete unhindered fits gone =>
      obtain ⟨pending, hpending, -⟩ := exists_pending_of_content fits
      exact ⟨upload, parts, rfl, Except.error.inj he, by rw [hpending]; rfl, hn⟩
  refine ⟨?_, ⟨?_, eq_entered_of_not_strands h⟩, hstranded,
    fun hm => eq_entered_of_not_strands h hm.housed.not_strands⟩
  · by_cases hr : m.Strands r
    · obtain ⟨upload, parts, -, -, -, rfl⟩ := hstranded hr
      rfl
    · rw [eq_entered_of_not_strands h hr]
      rfl
  · rintro rfl hr
    obtain ⟨upload, parts, -, -, hpending, heq⟩ := hstranded hr
    have huploads : m.uploads = m.uploads.erase upload.id := congrArg Memory.uploads heq
    rw [huploads, KeyMap.get?_erase, if_pos rfl] at hpending
    exact absurd hpending (by simp)

/-- A store whose bucket was deleted while an upload with one part was pending for it. -/
def bereft : Memory :=
  [.createBucket "b", .initiateUpload "b" "k", .uploadPart ⟨"b", "k", uploadId 1, 1, 0, [120]⟩,
    .deleteBucket "b"].foldl (fun m r => (m.answer r).2) (withPages "memory://obs" 10)

/-- The completion of this upload. -/
def completion : Request := .completeUpload ⟨"b", "k", uploadId 1⟩ [⟨1, etagOf [120]⟩]

private theorem strands_bereft : bereft.Strands completion := by
  have hfits : bereft.content ⟨"b", "k", uploadId 1⟩ [⟨1, etagOf [120]⟩] = .ok [120] := by
    decide +kernel
  exact .complete (by decide +kernel) hfits (by decide +kernel)

theorem unchanged_of_failure_of_bereft : ∃ n,
    bereft.answer completion = (.error (noSuchBucket "b"), n) ∧ n.buckets = bereft.buckets ∧
      bereft.uploads.size = 1 ∧ n.uploads.size = 0 := by
  obtain ⟨upload, parts, ⟨⟩, hanswer⟩ := answer_of_strands strands_bereft
  obtain ⟨hbuckets, -⟩ := unchanged_of_failure hanswer
  exact ⟨_, hanswer, hbuckets, by decide +kernel, by decide +kernel⟩

/-- The bucket of an upload can be deleted before the upload is completed. -/
theorem not_unchanged_of_bereft :
    ¬∀ m : Memory, m.Reachable → ∀ (r : Request) (e : Error) (n : Memory),
      m.answer r = (.error e, n) → n.buckets = m.buckets ∧ n.uploads = m.uploads := by
  intro h
  obtain ⟨upload, parts, ⟨⟩, hanswer⟩ := answer_of_strands strands_bereft
  have hreachable : bereft.Reachable :=
    .answered _ (.answered _ (.answered _ (.answered _ (.new _ _))))
  obtain ⟨-, huploads⟩ := h bereft hreachable completion _ _ hanswer
  have hsize := congrArg KeyMap.size huploads
  revert hsize
  decide +kernel

end BucketTransfer.ObjectStore.Memory
