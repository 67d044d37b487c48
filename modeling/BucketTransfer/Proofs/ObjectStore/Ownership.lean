import BucketTransfer.Proofs.ObjectStore.History

/-!
# The objects that uploads are for

A request for an upload names a bucket and a key besides the upload's name. A store looks at them
only where it completes an upload. A part is received and an upload is aborted by the name alone,
so a request that names another object gets at the upload, too.
-/
namespace BucketTransfer.ObjectStore

/-- The upload that a request is for, as the request has it. -/
def Request.target? : Request → Option Upload
  | .uploadPart part => some ⟨part.bucket, part.key, part.uploadId⟩
  | .completeUpload upload _ => some upload
  | .abortUpload upload => some upload
  | _ => none

/-- What a pending upload becomes by a request for it that succeeds. -/
def Request.applied : Request → Pending → Option Pending
  | .uploadPart part, pending =>
    some { pending with parts := (part.number, part.body) :: pending.parts }
  | _, _ => none

namespace Memory

/-- How a store with this past answers a request for an upload. -/
structure Heeds (past : List (Exchange Requests)) (m : Memory) (r : Request) (upload : Upload) :
    Prop where
  /-- A success is for the pending upload of this name, and only this one was started under it. -/
  reached : (m.answer r).1.isOk → ∃ pending, m.uploads.get? upload.id = some pending ∧
    (m.answer r).2.uploads.get? upload.id = r.applied pending ∧
      ∀ owner : Upload, owner.id = upload.id →
        (Started past owner ↔ owner = ⟨pending.bucket, pending.key, upload.id⟩)
  /-- An upload is completed only for its own object. -/
  completed : r.operation = .completeUpload → (m.answer r).1.isOk → Started past upload
  /-- Any object may be named where a part is received or an upload is aborted. -/
  named : r.operation ≠ .completeUpload → ((m.answer r).1.isOk ↔
    (Fault.meet r.operation m.faults).1 = none ∧ (m.uploads.get? upload.id).isSome)
  /-- A request for another object, or for an upload that is gone, has no effect if it fails. -/
  refused : ¬Started past upload ∨ m.uploads.get? upload.id = none → ¬(m.answer r).1.isOk →
    (m.answer r).2.uploads = m.uploads ∧ ((Fault.meet r.operation m.faults).1 = none →
      (m.answer r).1 = .error (noSuchUpload upload.id))
  others : ∀ id, id ≠ upload.id → (m.answer r).2.uploads.get? id = m.uploads.get? id

variable {past : List (Exchange Requests)} {m : Memory} {r : Request} {upload : Upload}

/-- One upload was started under the name of a pending one: this one, for its bucket and key. -/
theorem History.started_iff (h : History past m) {id : String} {pending : Pending}
    (hpending : m.uploads.get? id = some pending) (owner : Upload) (hid : owner.id = id) :
    Started past owner ↔ owner = ⟨pending.bucket, pending.key, id⟩ := by
  have horigin := h.recorded.origin hpending
  constructor
  · exact fun hstarted => h.recorded.unique hstarted horigin hid
  · rintro rfl
    exact horigin

/-- What was not started for this bucket and key, or is gone, is not there to be completed. -/
theorem History.content_of_absent (h : History past m)
    (habsent : ¬Started past upload ∨ m.uploads.get? upload.id = none)
    (parts : List CompletedPart) :
    m.content upload parts = .error (noSuchUpload upload.id) := by
  rw [content]
  split
  · rfl
  · rename_i pending hpending
    have hforeign : ¬Started past upload := habsent.resolve_right (by rw [hpending]; simp)
    rw [if_pos]
    by_contra hsame
    rw [not_or, not_not, not_not] at hsame
    refine hforeign ((h.started_iff hpending upload rfl).2 ?_)
    rw [hsame.1, hsame.2]

/-! ## The three requests -/

theorem heeds_of_fault {e : Error} (hfault : (Fault.meet r.operation m.faults).1 = some e) :
    Heeds past m r upload := by
  have hanswer := answer_of_fault hfault
  have herror : ¬(m.answer r).1.isOk := by
    rw [hanswer]
    exact Bool.false_ne_true
  have huploads : (m.answer r).2.uploads = m.uploads := by rw [hanswer]; rfl
  have hhindered : (Fault.meet r.operation m.faults).1 ≠ none := by rw [hfault]; simp
  exact {
    reached := fun hok => absurd hok herror
    completed := fun _ hok => absurd hok herror
    named := fun _ => iff_of_false herror fun hpassed => hhindered hpassed.1
    refused := fun _ _ => ⟨huploads, fun hpassed => absurd hpassed hhindered⟩
    others := fun id _ => by rw [huploads] }

/-- A request that needs no more than the upload's name. -/
private theorem heeds_of_name (h : History past m) (hne : r.operation ≠ .completeUpload)
    (hpassed : (Fault.meet r.operation m.faults).1 = none)
    (hgone : m.uploads.get? upload.id = none → (m.answer r).2.uploads = m.uploads ∧
      (m.answer r).1 = .error (noSuchUpload upload.id))
    (hthere : ∀ pending, m.uploads.get? upload.id = some pending → (m.answer r).1.isOk ∧
      (m.answer r).2.uploads.get? upload.id = r.applied pending ∧
        ∀ id, id ≠ upload.id → (m.answer r).2.uploads.get? id = m.uploads.get? id) :
    Heeds past m r upload := by
  cases hpending : m.uploads.get? upload.id with
  | none =>
    obtain ⟨huploads, herror⟩ := hgone hpending
    have hfails : ¬(m.answer r).1.isOk := by
      rw [herror]
      exact Bool.false_ne_true
    exact {
      reached := fun hok => absurd hok hfails
      completed := fun heq => absurd heq hne
      named := fun _ => iff_of_false hfails (by simp [hpending])
      refused := fun _ _ => ⟨huploads, fun _ => herror⟩
      others := fun id _ => by rw [huploads] }
  | some pending =>
    obtain ⟨hok, happlied, hothers⟩ := hthere pending hpending
    exact {
      reached := fun _ => ⟨pending, hpending, happlied, h.started_iff hpending⟩
      completed := fun heq => absurd heq hne
      named := fun _ => iff_of_true hok ⟨hpassed, by rw [hpending]; rfl⟩
      refused := fun _ hfails => absurd hok hfails
      others := hothers }

theorem History.heeds_uploadPart (h : History past m) (part : PartUpload)
    (hpassed : (Fault.meet .uploadPart m.faults).1 = none) :
    Heeds past m (.uploadPart part) ⟨part.bucket, part.key, part.uploadId⟩ := by
  have hanswer := answer_of_passed (r := .uploadPart part) hpassed
  have huploads : (m.entered (.uploadPart part)).uploads = m.uploads := rfl
  have hne : Operation.uploadPart ≠ .completeUpload := by decide
  refine heeds_of_name h hne hpassed (fun hgone => ?_) (fun pending hthere => ?_)
  · have heffect : m.answer (.uploadPart part) =
        (.error (noSuchUpload part.uploadId), m.entered (.uploadPart part)) := by
      rw [hanswer, effect, huploads, hgone]
    rw [heffect]
    exact ⟨rfl, rfl⟩
  · obtain ⟨done, hdone⟩ : ∃ done, (m.answer (.uploadPart part)).1 = .ok done := by
      rw [hanswer, effect, huploads, hthere]
      exact ⟨_, rfl⟩
    obtain ⟨received, hreceived, -, -, -, hinserted⟩ := uploadPart_ok (Prod.ext hdone rfl)
    obtain rfl := Option.some.inj (hthere.symm.trans hreceived)
    rw [hdone, hinserted]
    exact ⟨rfl, KeyMap.get?_insert_self, fun id hne => KeyMap.get?_insert_of_ne hne⟩

theorem History.heeds_abortUpload (h : History past m) (upload : Upload)
    (hpassed : (Fault.meet .abortUpload m.faults).1 = none) :
    Heeds past m (.abortUpload upload) upload := by
  have hanswer := answer_of_passed (r := .abortUpload upload) hpassed
  have huploads : (m.entered (.abortUpload upload)).uploads = m.uploads := rfl
  have hne : Operation.abortUpload ≠ .completeUpload := by decide
  refine heeds_of_name h hne hpassed (fun hgone => ?_) (fun pending hthere => ?_)
  · have hcontains : ¬m.uploads.contains upload.id = true := by
      rw [KeyMap.contains_eq_true, hgone]
      simp
    have heffect : m.answer (.abortUpload upload) =
        (.error (noSuchUpload upload.id), m.entered (.abortUpload upload)) := by
      rw [hanswer, effect, huploads, if_neg hcontains]
    rw [heffect]
    exact ⟨rfl, rfl⟩
  · have heffect : m.answer (.abortUpload upload) = (.ok (),
        { m.entered (.abortUpload upload) with uploads := m.uploads.erase upload.id }) := by
      rw [hanswer, effect, huploads, if_pos (KeyMap.contains_eq_true.2 ⟨pending, hthere⟩)]
    rw [heffect]
    refine ⟨rfl, ?_, fun id hne => ?_⟩
    · rw [KeyMap.get?_erase, if_pos rfl]
      rfl
    · rw [KeyMap.get?_erase, if_neg hne]

theorem History.heeds_completeUpload (h : History past m) (upload : Upload)
    (parts : List CompletedPart) (hpassed : (Fault.meet .completeUpload m.faults).1 = none) :
    Heeds past m (.completeUpload upload parts) upload := by
  have hanswer := answer_of_passed (r := .completeUpload upload parts) hpassed
  have hcontent : (m.entered (.completeUpload upload parts)).content upload parts =
      m.content upload parts := rfl
  have hothers : ∀ id, id ≠ upload.id →
      (m.answer (.completeUpload upload parts)).2.uploads.get? id = m.uploads.get? id := by
    intro id hne
    have herased : (m.uploads.erase upload.id).get? id = m.uploads.get? id :=
      (KeyMap.get?_erase ..).trans (if_neg hne)
    rw [hanswer]
    simp only [effect]
    split
    · rfl
    · split
      · exact herased
      · exact herased
  by_cases habsent : ¬Started past upload ∨ m.uploads.get? upload.id = none
  · have heffect : m.answer (.completeUpload upload parts) =
        (.error (noSuchUpload upload.id), m.entered (.completeUpload upload parts)) := by
      rw [hanswer, effect, hcontent, h.content_of_absent habsent]
    have hfails : ¬(m.answer (.completeUpload upload parts)).1.isOk := by
      rw [heffect]
      exact Bool.false_ne_true
    exact {
      reached := fun hok => absurd hok hfails
      completed := fun _ hok => absurd hok hfails
      named := fun hne => absurd rfl hne
      refused := fun _ _ => by rw [heffect]; exact ⟨rfl, fun _ => rfl⟩
      others := hothers }
  · obtain ⟨hstarted, hthere⟩ := not_or.1 habsent
    obtain ⟨pending, hpending⟩ := Option.ne_none_iff_exists'.1 hthere
    refine ⟨fun hok => ⟨pending, hpending, ?_, h.started_iff hpending⟩,
      fun _ _ => not_not.1 hstarted, fun hne => absurd rfl hne,
      fun habsent' => absurd habsent' habsent, hothers⟩
    obtain ⟨_, hok⟩ : ∃ reply, (m.answer (.completeUpload upload parts)).1 = .ok reply := by
      cases hreply : (m.answer (.completeUpload upload parts)).1 with
      | error cause => rw [hreply] at hok; cases hok
      | ok reply => exact ⟨reply, rfl⟩
    obtain ⟨_, _, -, -, -, -, huploads⟩ := complete_ok (Prod.ext hok rfl)
    rw [huploads, KeyMap.get?_erase, if_pos rfl]
    rfl

/-! ## All states -/

/-- In any state that a store can come to, and by whatever exchanges it did, a request for an upload
that succeeds is for a pending upload, the only one that was ever started under this name. A
completion has to name the bucket and the key of this upload as well; a part is received and an
upload is aborted whatever bucket and key are named. A request for what was not started for its
bucket and key, or is no longer pending, is otherwise answered as one for no upload and changes
none; and no request changes an upload of another name. -/
theorem heeds_of_reachable (h : m.Reachable) :
    (∃ past, History past m) ∧ ∀ past, History past m → ∀ r upload, r.target? = some upload →
      Heeds past m r upload := by
  refine ⟨h.exists_history, fun past hpast r upload htarget => ?_⟩
  cases hfault : (Fault.meet r.operation m.faults).1 with
  | some e => exact heeds_of_fault hfault
  | none =>
    cases r with
    | uploadPart part => exact Option.some.inj htarget ▸ hpast.heeds_uploadPart part hfault
    | completeUpload named parts =>
      exact Option.some.inj htarget ▸ hpast.heeds_completeUpload named parts hfault
    | abortUpload named => exact Option.some.inj htarget ▸ hpast.heeds_abortUpload named hfault
    | _ => cases htarget

/-- A store with uploads for two objects of one bucket. -/
def tenanted : Memory :=
  [.createBucket "b", .initiateUpload "b" "mine", .initiateUpload "b" "yours"].foldl
    (fun m r => (m.answer r).2) (withPages "memory://obs" 10)

private theorem reachable_tenanted : tenanted.Reachable :=
  .answered _ (.answered _ (.answered _ (.new _ _)))

/-- One upload can be aborted in the name of the other's object. -/
theorem heeds_of_tenanted : tenanted.Reachable ∧
    (tenanted.answer (.abortUpload ⟨"b", "mine", uploadId 2⟩)).1.isOk ∧ ∃ past,
      History past tenanted ∧ Started past ⟨"b", "yours", uploadId 2⟩ ∧
        ¬Started past ⟨"b", "mine", uploadId 2⟩ := by
  obtain ⟨⟨past, hpast⟩, hheeds⟩ := heeds_of_reachable reachable_tenanted
  have hok : (tenanted.answer (.abortUpload ⟨"b", "mine", uploadId 2⟩)).1.isOk := by
    decide +kernel
  obtain ⟨pending, hpending, -, hstarted⟩ := (hheeds past hpast _ _ rfl).reached hok
  have hyours : tenanted.uploads.get? (uploadId 2) = some { bucket := "b", key := "yours" } := by
    decide +kernel
  obtain rfl := Option.some.inj (hpending.symm.trans hyours)
  exact ⟨reachable_tenanted, hok, past, hpast, (hstarted ⟨"b", "yours", uploadId 2⟩ rfl).2 rfl,
    fun hmine => absurd ((hstarted _ rfl).1 hmine) (by decide)⟩

/-- A part for one object is received into the upload for another one. -/
theorem not_started_of_tenanted :
    ¬∀ (m : Memory) (past : List (Exchange Requests)), m.Reachable → History past m →
      ∀ (r : Request) (upload : Upload), r.target? = some upload →
        (Fault.meet r.operation m.faults).1 = none →
        ((m.answer r).1.isOk → Started past upload) ∧ (¬Started past upload →
          (m.answer r).1 = .error (noSuchUpload upload.id) ∧
            (m.answer r).2.uploads = m.uploads) := by
  intro h
  obtain ⟨past, hpast⟩ := reachable_tenanted.exists_history
  let part : PartUpload := ⟨"b", "mine", uploadId 2, 1, 0, [120]⟩
  obtain ⟨hstarted, -⟩ := h tenanted past reachable_tenanted hpast (.uploadPart part) _ rfl
    (by decide +kernel)
  have hyours : tenanted.uploads.get? (uploadId 2) = some { bucket := "b", key := "yours" } := by
    decide +kernel
  have hsame := (hpast.started_iff hyours ⟨"b", "mine", uploadId 2⟩ rfl).1
    (hstarted (by decide +kernel))
  exact absurd hsame (by decide)

end Memory

end BucketTransfer.ObjectStore
