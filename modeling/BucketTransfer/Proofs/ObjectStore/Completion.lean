import BucketTransfer.Proofs.ObjectStore.History
import BucketTransfer.Proofs.Outcome

/-!
# Completion of uploads

An upload is completed exactly if the parts that are listed increase and are each the last that was
received under its number. The object is then made of their bodies and of nothing else, and all else
stays as it was.
-/
namespace BucketTransfer.ObjectStore.Memory

variable {m n : Memory} {past : List (Exchange Requests)} {upload : Upload} {pending : Pending}
  {parts : List CompletedPart} {body : Bytes}

/-! ## The content of an upload -/

theorem ascending_iff :
    ascending parts = true ↔ parts.Pairwise fun a b => a.number < b.number := by
  rw [← List.isChain_iff_pairwise]
  induction parts with
  | nil => exact iff_of_true rfl .nil
  | cons a parts ih =>
    cases parts with
    | nil => exact iff_of_true rfl (.singleton a)
    | cons b rest =>
      rw [ascending, Bool.and_eq_true, decide_eq_true_iff, ih, List.isChain_cons_cons]

theorem assemble_eq_ok :
    assemble pending parts = .ok body ↔
      ∃ bodies, List.Forall₂ (fun part body => pending.parts.lookup part.number = some body ∧
        part.etag = etagOf body) parts bodies ∧ body = bodies.flatten := by
  induction parts generalizing body with
  | nil =>
    simp only [assemble, Except.ok.injEq, List.forall₂_nil_left_iff, exists_eq_left,
      List.flatten_nil]
    exact eq_comm
  | cons part parts ih =>
    rw [assemble]
    constructor
    · intro h
      split at h
      · cases h
      · rename_i first hfirst
        obtain ⟨hlookup, hetag⟩ := Option.filter_eq_some_iff.1 hfirst
        cases hrest : assemble pending parts with
        | error cause => cases hrest ▸ h
        | ok rest =>
          cases hrest ▸ h
          obtain ⟨bodies, hbodies, rfl⟩ := ih.1 hrest
          exact ⟨first :: bodies, .cons ⟨hlookup, (beq_iff_eq.1 hetag).symm⟩ hbodies, rfl⟩
    · rintro ⟨_, hbodies, rfl⟩
      cases hbodies with
      | @cons _ first _ bodies hfirst hbodies =>
        have hfilter : (pending.parts.lookup part.number).filter
            (fun body => etagOf body == part.etag) = some first :=
          Option.filter_eq_some_iff.2 ⟨hfirst.1, beq_iff_eq.2 hfirst.2.symm⟩
        rw [hfilter, ih.2 ⟨bodies, hbodies, rfl⟩]
        rfl

/-! ## Completion in view of the past -/

/-- The parts of a pending upload that are listed are the last that were received, and its bucket is
there. -/
structure Completable (past : List (Exchange Requests)) (m : Memory) (upload : Upload)
    (parts : List CompletedPart) : Prop where
  started : Started past upload
  pending : (m.uploads.get? upload.id).isSome
  nonempty : parts ≠ []
  increasing : parts.Pairwise fun a b => a.number < b.number
  latest : ∀ part ∈ parts, ∃ body, latest? past upload.id part.number = some body ∧
    part.etag = etagOf body
  bucket : (m.buckets.get? upload.bucket).isSome

/-- The bodies that were received last for the parts that are listed make up the object, the upload
is no longer pending, and all else is as before. -/
structure Completed (past : List (Exchange Requests)) (m : Memory) (upload : Upload)
    (parts : List CompletedPart) (n : Memory) : Prop where
  object : ∃ bodies, List.Forall₂ (fun part body =>
    latest? past upload.id part.number = some body) parts bodies ∧
      n.object? upload.bucket upload.key = some bodies.flatten
  gone : n.uploads.get? upload.id = none
  objects : ∀ bucket key, (bucket, key) ≠ (upload.bucket, upload.key) →
    n.object? bucket key = m.object? bucket key
  buckets : ∀ bucket, (n.buckets.get? bucket).isSome = (m.buckets.get? bucket).isSome
  uploads : ∀ id, id ≠ upload.id → n.uploads.get? id = m.uploads.get? id

theorem History.content_eq_ok (h : History past m) :
    m.content upload parts = .ok body ↔
      Started past upload ∧ (m.uploads.get? upload.id).isSome ∧ parts ≠ [] ∧
        (parts.Pairwise fun a b => a.number < b.number) ∧
          ∃ bodies, List.Forall₂ (fun part body =>
            latest? past upload.id part.number = some body ∧ part.etag = etagOf body)
              parts bodies ∧ body = bodies.flatten := by
  rw [Memory.content_eq_ok]
  constructor
  · rintro ⟨pending, hpending, hbucket, hkey, hsome, hascending, hassemble⟩
    have horigin := h.recorded.origin hpending
    rw [hbucket, hkey] at horigin
    rw [assemble_eq_ok] at hassemble
    simp only [h.recorded.parts hpending] at hassemble
    exact ⟨horigin, by rw [hpending]; rfl, hsome, ascending_iff.1 hascending, hassemble⟩
  · rintro ⟨hstarted, hpending, hsome, hincreasing, hbodies⟩
    obtain ⟨pending, hpending⟩ := Option.isSome_iff_exists.1 hpending
    have hsame := h.recorded.unique (h.recorded.origin hpending) hstarted rfl
    refine ⟨pending, hpending, congrArg Upload.bucket hsame, congrArg Upload.key hsame, hsome,
      ascending_iff.2 hincreasing, ?_⟩
    rw [assemble_eq_ok]
    simp only [h.recorded.parts hpending]
    exact hbodies

theorem History.completeUpload_eq_ok (h : History past m)
    (hpassed : (Fault.meet .completeUpload m.faults).1 = none) :
    (m.answer (.completeUpload upload parts)).1 = .ok () ↔
      Completable past m upload parts := by
  rw [Memory.completeUpload_eq_ok hpassed]
  simp only [h.content_eq_ok]
  constructor
  · rintro ⟨⟨_, hstarted, hpending, hsome, hincreasing, bodies, hbodies, -⟩, hbucket⟩
    exact ⟨hstarted, hpending, hsome, hincreasing, exists_forall₂_iff.1 ⟨bodies, hbodies⟩, hbucket⟩
  · intro hcompletable
    obtain ⟨bodies, hbodies⟩ := exists_forall₂_iff.2 hcompletable.latest
    exact ⟨⟨_, hcompletable.started, hcompletable.pending, hcompletable.nonempty,
      hcompletable.increasing, bodies, hbodies, rfl⟩, hcompletable.bucket⟩

theorem History.completed (h : History past m)
    (hok : m.answer (.completeUpload upload parts) = (.ok (), n)) :
    Completed past m upload parts n := by
  obtain ⟨body, objects, hcontent, hheld, hbuckets, -, huploads⟩ := complete_ok hok
  obtain ⟨-, -, -, -, bodies, hbodies, rfl⟩ := h.content_eq_ok.1 hcontent
  refine ⟨⟨bodies, hbodies.imp fun _ _ hbody => hbody.1, ?_⟩, ?_, ?_, ?_, ?_⟩
  · rw [object?_of_insert hheld hbuckets, if_pos ⟨rfl, rfl⟩]
  · rw [huploads, KeyMap.get?_erase, if_pos rfl]
  · intro bucket key hne
    rw [object?_of_insert hheld hbuckets, if_neg fun hsame => hne (Prod.ext hsame.1 hsame.2)]
  · intro bucket
    rw [hbuckets, KeyMap.get?_insert]
    split
    case isTrue heq => rw [heq, hheld]; rfl
    case isFalse => rfl
  · intro id hne
    rw [huploads, KeyMap.get?_erase, if_neg hne]

/-- In any state that a store can come to, and by whatever exchanges it did, an upload is completed
exactly if it is pending and was started for just this bucket and key, the bucket is there, and the
parts that are listed are some, increase, and are each the last one received under its number. It
then becomes the object that is made of their bodies in this order, and nothing else changes. -/
theorem completeUpload_of_reachable (h : m.Reachable)
    (hpassed : (Fault.meet .completeUpload m.faults).1 = none) :
    (∃ past, History past m) ∧ ∀ past, History past m → ∀ upload parts,
      ((m.answer (.completeUpload upload parts)).1 = .ok () ↔
          Completable past m upload parts) ∧
        ∀ n, m.answer (.completeUpload upload parts) = (.ok (), n) →
          Completed past m upload parts n :=
  ⟨h.exists_history, fun _ hpast _ _ =>
    ⟨hpast.completeUpload_eq_ok hpassed, fun _ hok => hpast.completed hok⟩⟩

/-- A store with an upload whose first part was sent twice. -/
def resent : Memory :=
  [.createBucket "b", .initiateUpload "b" "k", .uploadPart ⟨"b", "k", uploadId 1, 1, 0, [1]⟩,
    .uploadPart ⟨"b", "k", uploadId 1, 3, 0, [9]⟩, .uploadPart ⟨"b", "k", uploadId 1, 2, 0, [7]⟩,
    .uploadPart ⟨"b", "k", uploadId 1, 1, 0, [2]⟩].foldl (fun m r => (m.answer r).2)
      (withPages "memory://obs" 10)

/-- The part that is not listed is dropped, as is the first one as it was at first. -/
theorem completed_of_resent :
    let upload : Upload := ⟨"b", "k", uploadId 1⟩
    let parts : List CompletedPart := [⟨1, etagOf [2]⟩, ⟨3, etagOf [9]⟩]
    resent.Reachable ∧ (Fault.meet .completeUpload resent.faults).1 = none ∧
      ∃ past, History past resent ∧ Completable past resent upload parts ∧
        ∃ n, resent.answer (.completeUpload upload parts) = (.ok (), n) ∧
          Completed past resent upload parts n ∧ n.object? "b" "k" = some [2, 9] := by
  intro upload parts
  have hreachable : resent.Reachable :=
    .answered _ (.answered _ (.answered _ (.answered _ (.answered _ (.answered _ (.new _ _))))))
  have hpassed : (Fault.meet .completeUpload resent.faults).1 = none := by decide +kernel
  have hok : (resent.answer (.completeUpload upload parts)).1 = .ok () := by decide +kernel
  obtain ⟨⟨past, hpast⟩, hcompletion⟩ := completeUpload_of_reachable hreachable hpassed
  obtain ⟨hiff, hcompleted⟩ := hcompletion past hpast upload parts
  exact ⟨hreachable, hpassed, past, hpast, hiff.1 hok, _, Prod.ext hok rfl,
    hcompleted _ (Prod.ext hok rfl), by decide +kernel⟩

end BucketTransfer.ObjectStore.Memory
