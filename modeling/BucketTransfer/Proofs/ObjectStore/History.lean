import BucketTransfer.Proofs.ObjectStore.Reachable
import BucketTransfer.Proofs.ObjectStore.Restricted

/-!
# The past of a store in memory

What a store knows of uploads is what it was asked before: an upload that is pending was started for
its bucket and key under a name that no other one has, and of the parts that were sent for it those
count that arrived last under their numbers.
-/
namespace BucketTransfer.ObjectStore.Memory

/-- The exchanges of a store that can have come to its state by them, the last one first. -/
inductive History : List (Exchange Requests) → Memory → Prop where
  | new (endpoint : String) (pageSize : Nat) : History [] (withPages endpoint pageSize)
  | seeded {past : List (Exchange Requests)} {m : Memory} (bucket : String)
      (objects : List (String × Bytes)) (before : History past m) :
      History past (m.seed bucket objects)
  | hindered {past : List (Exchange Requests)} {m : Memory} (fault : Fault)
      (before : History past m) : History past (m.withFault fault)
  | mended {past : List (Exchange Requests)} {m : Memory} (before : History past m) :
      History past { m with faults := [] }
  | forgotten {past : List (Exchange Requests)} {m : Memory} (before : History past m) :
      History past { m with calls := [] }
  | answered {past : List (Exchange Requests)} {m : Memory} (r : Request)
      (before : History past m) : History (⟨r, (m.answer r).1⟩ :: past) (m.answer r).2

/-- The upload was started. -/
def Started (past : List (Exchange Requests)) (upload : Upload) : Prop :=
  ⟨.initiateUpload upload.bucket upload.key, .ok upload⟩ ∈ past

/-- The body that was received in an exchange for a part of an upload. -/
def body? (id : String) (number : Nat) : Exchange Requests → Option Bytes
  | ⟨.uploadPart part, .ok _⟩ =>
    if part.uploadId = id ∧ part.number = number then some part.body else none
  | _ => none

/-- The body that was received last for a part of an upload. -/
def latest? (past : List (Exchange Requests)) (id : String) (number : Nat) : Option Bytes :=
  past.findSome? (body? id number)

/-- No upload is started in the exchange, and no part is received. -/
def Quiet (e : Exchange Requests) : Prop :=
  (∀ upload : Upload, e ≠ ⟨.initiateUpload upload.bucket upload.key, .ok upload⟩) ∧
    ∀ id number, body? id number e = none

/-- The ways an exchange can change the uploads of a store and the number of those started. -/
inductive Alters (uploads : KeyMap Pending) (count : Nat) :
    Exchange Requests → KeyMap Pending → Nat → Prop where
  | started (bucket key : String) :
      Alters uploads count
        ⟨.initiateUpload bucket key, .ok ⟨bucket, key, uploadId (count + 1)⟩⟩
        (uploads.insert (uploadId (count + 1)) { bucket, key }) (count + 1)
  | received (part : PartUpload) (pending : Pending)
      (there : uploads.get? part.uploadId = some pending) :
      Alters uploads count ⟨.uploadPart part, .ok ⟨part.number, etagOf part.body⟩⟩
        (uploads.insert part.uploadId
          { pending with parts := (part.number, part.body) :: pending.parts }) count
  | removed {e : Exchange Requests} (quiet : Quiet e) (id : String) :
      Alters uploads count e (uploads.erase id) count
  | kept {e : Exchange Requests} (quiet : Quiet e) : Alters uploads count e uploads count

/-- What is known of the uploads of a store agrees with the past. -/
structure Recorded (past : List (Exchange Requests)) (uploads : KeyMap Pending) (count : Nat) :
    Prop where
  origin : ∀ {id pending}, uploads.get? id = some pending →
    Started past ⟨pending.bucket, pending.key, id⟩
  parts : ∀ {id pending}, uploads.get? id = some pending →
    ∀ number, pending.parts.lookup number = latest? past id number
  named : ∀ {upload}, Started past upload → ∃ i ≤ count, upload.id = uploadId i
  /-- No part was received for an upload that is still to be started. -/
  addressed : ∀ {id number body}, latest? past id number = some body →
    ∃ i ≤ count, id = uploadId i
  unique : ∀ {upload other}, Started past upload → Started past other → upload.id = other.id →
    upload = other

variable {past : List (Exchange Requests)} {m : Memory} {uploads uploads' : KeyMap Pending}
  {count count' : Nat} {e : Exchange Requests}

theorem Reachable.exists_history (h : m.Reachable) : ∃ past, History past m := by
  induction h with
  | new endpoint pageSize => exact ⟨[], .new endpoint pageSize⟩
  | seeded bucket objects _ ih => exact ih.imp fun _ => .seeded bucket objects
  | hindered fault _ ih => exact ih.imp fun _ => .hindered fault
  | mended _ ih => exact ih.imp fun _ => .mended
  | forgotten _ ih => exact ih.imp fun _ => .forgotten
  | answered r _ ih =>
    obtain ⟨past, hpast⟩ := ih
    exact ⟨_, .answered r hpast⟩

/-! ## One exchange -/

theorem quiet_of_error {r : Request} {cause : Error} : Quiet ⟨r, .error cause⟩ := by
  refine ⟨by rintro upload ⟨⟩, fun id number => ?_⟩
  cases r <;> rfl

theorem alters_effect (m : Memory) (r : Request) :
    Alters m.uploads m.started ⟨r, (m.effect r).1⟩ (m.effect r).2.uploads
      (m.effect r).2.started := by
  cases r with
  | initiateUpload bucket key =>
    simp only [effect]
    split
    · exact .kept quiet_of_error
    · exact .started bucket key
  | uploadPart part =>
    simp only [effect]
    split
    · exact .kept quiet_of_error
    · rename_i pending hpending
      exact .received part pending hpending
  | completeUpload upload parts =>
    simp only [effect]
    split
    · exact .kept quiet_of_error
    · split
      · exact .removed quiet_of_error upload.id
      · exact .removed ⟨by rintro _ ⟨⟩, fun _ _ => rfl⟩ upload.id
  | abortUpload upload =>
    simp only [effect]
    split
    · exact .removed ⟨by rintro _ ⟨⟩, fun _ _ => rfl⟩ upload.id
    · exact .kept quiet_of_error
  | _ =>
    simp only [effect]
    repeat' split
    all_goals exact .kept ⟨by rintro _ ⟨⟩, fun _ _ => rfl⟩

theorem alters_answer (m : Memory) (r : Request) :
    Alters m.uploads m.started ⟨r, (m.answer r).1⟩ (m.answer r).2.uploads
      (m.answer r).2.started := by
  cases hfault : (Fault.meet r.operation m.faults).1 with
  | some cause =>
    rw [answer_of_fault hfault]
    exact .kept quiet_of_error
  | none =>
    rw [answer_of_passed hfault]
    exact alters_effect (m.entered r) r

theorem latest?_cons (e : Exchange Requests) (past : List (Exchange Requests)) (id : String)
    (number : Nat) :
    latest? (e :: past) id number = (body? id number e).or (latest? past id number) := by
  rw [latest?, List.findSome?_cons]
  cases body? id number e <;> rfl

theorem Quiet.started_cons (h : Quiet e) {upload : Upload} :
    Started (e :: past) upload ↔ Started past upload := by
  rw [Started, List.mem_cons]
  exact or_iff_right fun heq => h.1 upload heq.symm

theorem Quiet.latest?_cons (h : Quiet e) {id : String} {number : Nat} :
    latest? (e :: past) id number = latest? past id number := by
  rw [Memory.latest?_cons, h.2, Option.none_or]

/-! ## All exchanges -/

namespace Recorded

theorem empty : Recorded [] ∅ 0 where
  origin := fun h => absurd h (by simp)
  parts := fun h => absurd h (by simp)
  named := fun h => absurd h List.not_mem_nil
  addressed := fun h => absurd h (by simp [latest?])
  unique := fun h => absurd h List.not_mem_nil

theorem quiet (h : Recorded past uploads count) (he : Quiet e) :
    Recorded (e :: past) uploads count where
  origin := fun hpending => he.started_cons.2 (h.origin hpending)
  parts := fun hpending number => by rw [he.latest?_cons, h.parts hpending]
  named := fun hstarted => h.named (he.started_cons.1 hstarted)
  addressed := fun hlatest => h.addressed (he.latest?_cons ▸ hlatest)
  unique := fun hstarted hother => h.unique (he.started_cons.1 hstarted) (he.started_cons.1 hother)

theorem erase (h : Recorded past uploads count) (id : String) :
    Recorded past (uploads.erase id) count := by
  have hold : ∀ {k pending}, (uploads.erase id).get? k = some pending →
      uploads.get? k = some pending := by
    intro k pending hpending
    rw [KeyMap.get?_erase] at hpending
    split at hpending
    · cases hpending
    · exact hpending
  exact { h with
    origin := fun hpending => h.origin (hold hpending)
    parts := fun hpending => h.parts (hold hpending) }

/-- The name of the next upload was not given before. -/
theorem new_name (h : Recorded past uploads count) {upload : Upload}
    (hstarted : Started past upload) : upload.id ≠ uploadId (count + 1) := by
  intro heq
  obtain ⟨i, hi, hid⟩ := h.named hstarted
  obtain rfl := uploadId_inj (hid.symm.trans heq)
  exact Nat.not_succ_le_self count hi

theorem latest?_new_name (h : Recorded past uploads count) (number : Nat) :
    latest? past (uploadId (count + 1)) number = none := by
  rw [Option.eq_none_iff_forall_ne_some]
  intro body hbody
  obtain ⟨i, hi, hid⟩ := h.addressed hbody
  obtain rfl := uploadId_inj hid
  exact Nat.not_succ_le_self count hi

theorem start (h : Recorded past uploads count) (bucket key : String) :
    Recorded
      (⟨.initiateUpload bucket key, .ok ⟨bucket, key, uploadId (count + 1)⟩⟩ :: past)
      (uploads.insert (uploadId (count + 1)) { bucket, key }) (count + 1) := by
  have hstarted : ∀ {upload : Upload}, Started
      (⟨.initiateUpload bucket key, .ok ⟨bucket, key, uploadId (count + 1)⟩⟩ :: past) upload ↔
        upload = ⟨bucket, key, uploadId (count + 1)⟩ ∨ Started past upload := by
    rintro ⟨b, k, id⟩
    rw [Started, List.mem_cons]
    refine or_congr_left ⟨?_, ?_⟩
    · rintro ⟨⟩
      rfl
    · rintro ⟨⟩
      rfl
  have hlatest : ∀ id number, latest?
      (⟨.initiateUpload bucket key, .ok ⟨bucket, key, uploadId (count + 1)⟩⟩ :: past) id number =
        latest? past id number := fun _ _ => rfl
  refine ⟨?_, ?_, ?_, ?_, ?_⟩
  · intro id pending hpending
    rw [KeyMap.get?_insert] at hpending
    rw [hstarted]
    split at hpending
    case isTrue hid =>
      obtain rfl := Option.some.inj hpending
      exact .inl (by rw [hid])
    case isFalse => exact .inr (h.origin hpending)
  · intro id pending hpending number
    rw [KeyMap.get?_insert] at hpending
    rw [hlatest]
    split at hpending
    case isTrue hid =>
      obtain rfl := Option.some.inj hpending
      rw [hid, h.latest?_new_name]
      rfl
    case isFalse => exact h.parts hpending number
  · intro upload hupload
    rcases hstarted.1 hupload with rfl | hbefore
    · exact ⟨count + 1, Nat.le_refl _, rfl⟩
    · obtain ⟨i, hi, hid⟩ := h.named hbefore
      exact ⟨i, Nat.le_succ_of_le hi, hid⟩
  · intro id number body hbody
    rw [hlatest] at hbody
    obtain ⟨i, hi, hid⟩ := h.addressed hbody
    exact ⟨i, Nat.le_succ_of_le hi, hid⟩
  · intro upload other hupload hother heq
    rcases hstarted.1 hupload with rfl | hbefore
    · rcases hstarted.1 hother with rfl | hbefore'
      · rfl
      · exact absurd heq.symm (h.new_name hbefore')
    · rcases hstarted.1 hother with rfl | hbefore'
      · exact absurd heq (h.new_name hbefore)
      · exact h.unique hbefore hbefore' heq

theorem receive (h : Recorded past uploads count) {part : PartUpload} {pending : Pending}
    (there : uploads.get? part.uploadId = some pending) :
    Recorded (⟨.uploadPart part, .ok ⟨part.number, etagOf part.body⟩⟩ :: past)
      (uploads.insert part.uploadId
        { pending with parts := (part.number, part.body) :: pending.parts }) count := by
  have hstarted : ∀ {upload : Upload}, Started
      (⟨.uploadPart part, .ok ⟨part.number, etagOf part.body⟩⟩ :: past) upload ↔
        Started past upload := by
    intro upload
    rw [Started, List.mem_cons]
    refine or_iff_right ?_
    rintro ⟨⟩
  have hlatest : ∀ id number, latest?
      (⟨.uploadPart part, .ok ⟨part.number, etagOf part.body⟩⟩ :: past) id number =
        if part.uploadId = id ∧ part.number = number then some part.body
        else latest? past id number := by
    intro id number
    rw [latest?_cons, body?]
    split <;> rfl
  refine ⟨?_, ?_, ?_, ?_, ?_⟩
  · intro id pending' hpending
    rw [KeyMap.get?_insert] at hpending
    rw [hstarted]
    split at hpending
    case isTrue hid =>
      obtain rfl := Option.some.inj hpending
      have horigin := h.origin there
      rwa [← hid] at horigin
    case isFalse => exact h.origin hpending
  · intro id pending' hpending number
    rw [KeyMap.get?_insert] at hpending
    rw [hlatest]
    split at hpending
    case isTrue hid =>
      obtain rfl := Option.some.inj hpending
      rw [hid, List.lookup_cons]
      by_cases hnumber : number = part.number
      · simp [hnumber]
      · rw [beq_false_of_ne hnumber, if_neg fun hpart => hnumber hpart.2.symm]
        exact h.parts there number
    case isFalse hid =>
      rw [if_neg fun hpart => hid hpart.1.symm]
      exact h.parts hpending number
  · exact fun hupload => h.named (hstarted.1 hupload)
  · intro id number body hbody
    rw [hlatest] at hbody
    split at hbody
    case isTrue hpart => exact hpart.1 ▸ h.named (h.origin there)
    case isFalse => exact h.addressed hbody
  · exact fun hupload hother => h.unique (hstarted.1 hupload) (hstarted.1 hother)

/-- Any exchange leaves what is known of uploads in agreement with the past. -/
theorem step (h : Recorded past uploads count) (he : Alters uploads count e uploads' count') :
    Recorded (e :: past) uploads' count' := by
  cases he with
  | started bucket key => exact h.start bucket key
  | received part pending there => exact h.receive there
  | removed quiet id => exact (h.quiet quiet).erase id
  | kept quiet => exact h.quiet quiet

end Recorded

theorem History.recorded (h : History past m) : Recorded past m.uploads m.started := by
  induction h with
  | new endpoint pageSize => exact .empty
  | seeded bucket objects _ ih => exact ih
  | hindered fault _ ih =>
    rw [withFault]
    split
    · exact ih
    · exact ih
  | mended _ ih => exact ih
  | forgotten _ ih => exact ih
  | answered r _ ih => exact ih.step (alters_answer _ r)

end BucketTransfer.ObjectStore.Memory
