import BucketTransfer.Proofs.ObjectStore.Assembly
import BucketTransfer.Proofs.ObjectStore.Exchanges
import BucketTransfer.Proofs.ObjectStore.Reachable
import BucketTransfer.Proofs.Services.Scripted
import BucketTransfer.Proofs.Transfer.Protocol

/-!
# What a transfer does to a store

An upload that is completed puts the content of its stream under its key and leaves all else as it
was; one that fails, wherever it does, leaves the store as if it had never been started.
-/
namespace BucketTransfer
open ObjectStore (Memory Upload CompletedPart)

namespace ObjectStore.Memory

/-- A store that holds the same objects and pending uploads as before. -/
structure Kept (m m' : Memory) : Prop where
  buckets : m'.buckets = m.buckets
  uploads : m'.uploads = m.uploads

/-- A store that holds one object more or anew, and all else as before. -/
structure Gained (m : Memory) (bucket key : String) (body : Bytes) (m' : Memory) : Prop where
  buckets : ∃ objects, m.buckets.get? bucket = some objects ∧
    m'.buckets = m.buckets.insert bucket (objects.insert key body)
  uploads : m'.uploads = m.uploads

/-- A store with one more upload, of the first chunks of some content. -/
structure Uploading (m : Memory) (upload : Upload) (size : Nat) (content : Bytes) (count : Nat)
    (m' : Memory) : Prop where
  buckets : m'.buckets = m.buckets
  uploads : m'.uploads = m.uploads.insert upload.id
    ⟨upload.bucket, upload.key, (numbered size content count).reverse⟩

variable {m m' n : Memory} {bucket key : String} {body : Bytes}

theorem Kept.refl (m : Memory) : m.Kept m := ⟨rfl, rfl⟩

theorem Kept.trans {l : Memory} (h : l.Kept m) (h' : m.Kept n) : l.Kept n :=
  ⟨h'.buckets.trans h.buckets, h'.uploads.trans h.uploads⟩

theorem Alike.kept (h : m.Alike n) : m.Kept n := ⟨h.buckets, h.uploads⟩

theorem Gained.of_kept {l : Memory} (h : l.Kept m) (h' : m.Gained bucket key body n) :
    l.Gained bucket key body n := by
  obtain ⟨⟨objects, hobjects, hbuckets⟩, huploads⟩ := h'
  rw [h.buckets] at hobjects hbuckets
  exact ⟨⟨objects, hobjects, hbuckets⟩, huploads.trans h.uploads⟩

theorem Kept.object? (h : m.Kept m') (bucket key : String) :
    m'.object? bucket key = m.object? bucket key := by
  rw [Memory.object?, h.buckets, Memory.object?]

theorem Gained.object? (h : m.Gained bucket key body m') (b k : String) :
    m'.object? b k = if b = bucket ∧ k = key then some body else m.object? b k := by
  obtain ⟨objects, hobjects, hbuckets⟩ := h.buckets
  exact object?_of_insert hobjects hbuckets b k

variable {upload : Upload} {size count : Nat} {content : Bytes}

theorem Uploading.of_alike (h : m.Uploading upload size content count n) (halike : n.Alike m') :
    m.Uploading upload size content count m' :=
  ⟨halike.buckets.trans h.buckets, halike.uploads.trans h.uploads⟩

theorem Uploading.get? (h : m.Uploading upload size content count m') :
    m'.uploads.get? upload.id =
      some ⟨upload.bucket, upload.key, (numbered size content count).reverse⟩ := by
  rw [h.uploads, KeyMap.get?_insert_self]

end ObjectStore.Memory

namespace Transfer.Sink
open ByteStream (lt_chunks_of_ends)
open ObjectStore.Memory

section Uploads

variable {s : Sink} {m l n : Memory} {said : List (Exchange World)} {upload started : Upload}
  {content : Bytes} {count : Nat} {parts : List CompletedPart} {stream : ByteStream}
  {bucket key name : String} {object : Uploaded}

theorem uploading_of_started (size : Nat) (content : Bytes) (hm : m.Numbered)
    (h : m.answer (.initiateUpload bucket key) = (.ok started, n)) :
    m.Uploading ⟨bucket, key, started.id⟩ size content 0 n ∧ m.uploads.get? started.id = none ∧
      (m.buckets.get? bucket).isSome := by
  obtain ⟨hstarted, ⟨objects, hobjects⟩, hbuckets, -, huploads⟩ := initiate_ok h
  rw [hstarted]
  exact ⟨⟨hbuckets, huploads⟩, hm _ (Nat.lt_succ_self _), by rw [hobjects]; rfl⟩

/-- The chunks that are sent are held with the upload. -/
theorem uploading_of_leads (hl : m.Uploading upload s.chunkSize content count l)
    (h : Leads Memory.Step l (s.uploads upload content (count + 1) parts) n) :
    parts = receipts s.chunkSize content (count + 1) parts.length ∧
      m.Uploading upload s.chunkSize content (count + parts.length) n := by
  induction parts generalizing l count with
  | nil =>
    obtain rfl := leads_nil.1 h
    exact ⟨rfl, hl⟩
  | cons part parts ih =>
    rw [uploads_cons] at h
    obtain ⟨mid, hfirst, hrest⟩ := leads_cons.1 h
    obtain ⟨pending, hpending, hdone, hbuckets, -, huploads⟩ :=
      uploadPart_ok (step_exchange.1 hfirst)
    have hmid : m.Uploading upload s.chunkSize content (count + 1) mid := by
      obtain rfl := Option.some.inj (hl.get?.symm.trans hpending)
      refine ⟨hbuckets.trans hl.buckets, ?_⟩
      rw [huploads, hl.uploads, numbered_succ]
      exact KeyMap.insert_insert ..
    obtain ⟨hparts, hlast⟩ := ih hmid hrest
    refine ⟨?_, ?_⟩
    · rw [List.length_cons, receipts_succ, ← hparts, hdone]
      rfl
    · rwa [List.length_cons, Nat.add_comm parts.length, ← Nat.add_assoc]

private theorem gained_of_ending {progress : Progress}
    (hl : m.Uploading upload s.chunkSize stream.bytes parts.length l)
    (hfresh : m.uploads.get? upload.id = none)
    (hparts : parts = receipts s.chunkSize stream.bytes 1 parts.length)
    (hending : s.Ending upload stream parts said (.ok progress))
    (h : Leads Memory.Step l said n) :
    stream.failure = none ∧ m.Gained upload.bucket upload.key stream.bytes n := by
  cases hending with
  | completed hends hall hfits =>
    have hlast : ¬parts.length < stream.chunks s.chunkSize := Nat.not_lt.2 (Nat.le_of_eq hall.symm)
    rw [lt_chunks_of_ends s.chunkSize_pos hends] at hlast
    obtain ⟨body, objects, hcontent, hobjects, hbuckets, -, huploads⟩ :=
      complete_ok (step_exchange.1 (leads_singleton.1 h))
    have hbody : body = stream.bytes := by
      have hchunks := content_of_numbered (by omega) hl.get?
      rw [← hparts, hcontent, List.take_of_length_le (by omega)] at hchunks
      exact Except.ok.inj hchunks
    refine ⟨hends, ⟨objects, ?_, ?_⟩, ?_⟩
    · rw [← hl.buckets, hobjects]
    · rw [hbuckets, hl.buckets, hbody]
    · rw [huploads, hl.uploads, KeyMap.erase_insert hfresh]

/-- A session that comes to an object puts the content of its stream into the store. -/
theorem gained_of_session (hm : m.Numbered) (hsession : s.Session stream name said (.ok object))
    (h : Leads Memory.Step m said n) :
    stream.failure = none ∧ m.Gained s.bucket (s.keyPrefix ++ name) stream.bytes n := by
  cases hsession with
  | completed started parts final progress hending =>
    obtain ⟨first, hinitiate, hrest⟩ := leads_cons.1 h
    obtain ⟨mid, huploads, hfinal⟩ := leads_append.1 hrest
    obtain ⟨hfirst, hfresh, -⟩ :=
      uploading_of_started s.chunkSize stream.bytes hm (step_exchange.1 hinitiate)
    obtain ⟨hparts, hmid⟩ := uploading_of_leads hfirst huploads
    rw [Nat.zero_add] at hparts hmid
    exact gained_of_ending hmid hfresh hparts hending hfinal

end Uploads

section Rehearsals
open Rehearsal (Answers play)
open Services (Scripted)
open Services.Scripted

/-- A sink at the first store: its client is one of that store, and its uploads can be aborted
there. -/
structure Ready (s : Sink) (w : Rehearsal Scripted) : Prop where
  stores_ne_nil : w.services.stores ≠ []
  numbered : (store w).Numbered
  unhindered : (store w).Unhindered .abortUpload
  client : Full s.client ∨ Partial s.client
  aborts : w.services.Permits s.client .abortUpload ∨
    ∃ other, s.abortClient = some other ∧ Full other

variable {s : Sink} {w mid last : Rehearsal Scripted} {said : List (Exchange World)}
  {upload : Upload} {m : Memory} {content : Bytes} {count : Nat} {parts : List CompletedPart}
  {stream : ByteStream}

/-- Whatever is asked for, a sink stays ready. -/
theorem Ready.of_answers (h : s.Ready w) (hsaid : Answers w said last) : s.Ready last := by
  have hstores := h.stores_ne_nil
  obtain ⟨hlast, hallowed, hnumbered⟩ :=
    Scripted.of_answers (P := Numbered) (fun _ r hm => numbered_answer hm r) hstores hsaid
      h.numbered
  obtain ⟨-, -, hunhindered⟩ :=
    Scripted.of_answers (P := fun m => m.Unhindered .abortUpload)
      (fun _ r hm => unhindered_answer hm r) hstores hsaid h.unhindered
  exact ⟨hlast, hnumbered, hunhindered, h.client, by simpa only [Permits, hallowed] using h.aborts⟩

/-- What is granted leads the first store to where it is then. -/
private theorem leads_of_granted (hw : s.Ready w) (hsaid : ∀ e ∈ said, s.Granted e)
    (h : Answers w said last) : Leads Memory.Step (store w) said (store last) := by
  induction h with
  | nil w => exact .nil _
  | cons answer rest ih =>
    obtain ⟨⟨r, reply, rfl⟩, hrest⟩ := List.forall_mem_cons.1 hsaid
    have hfirst := Answers.cons answer (.nil _)
    exact .cons (step_exchange.2 (answers_ok hw.stores_ne_nil hw.client hfirst))
      (ih (hw.of_answers hfirst) hrest)

theorem uploading_of_uploads (hw : s.Ready w)
    (hm : m.Uploading upload s.chunkSize content count (store w))
    (h : Answers w (s.uploads upload content (count + 1) parts) last) :
    parts = receipts s.chunkSize content (count + 1) parts.length ∧
      m.Uploading upload s.chunkSize content (count + parts.length) (store last) :=
  uploading_of_leads hm (leads_of_granted hw granted_of_uploads h)

private theorem uploading_of_ending {stop : Stop} (hw : s.Ready w)
    (hm : m.Uploading upload s.chunkSize stream.bytes count (store w))
    (hbucket : (m.buckets.get? upload.bucket).isSome)
    (hending : s.Ending upload stream parts said (.error stop)) (h : Answers w said last) :
    m.Uploading upload s.chunkSize stream.bytes count (store last) := by
  cases hending with
  | incomplete cause =>
    rcases answers_error hw.stores_ne_nil hw.client h with halike | ⟨_, _, ⟨⟩, hnone⟩
    · exact hm.of_alike halike
    · rw [← hm.buckets, hnone] at hbucket
      exact absurd hbucket (by simp)
  | refused cause =>
    rcases answers_error hw.stores_ne_nil hw.client h with halike | ⟨_, _, heq, -⟩
    · exact hm.of_alike halike
    · exact absurd heq (by simp)
  | unreadable message =>
    obtain rfl := Rehearsal.answers_nil.1 h
    exact hm
  | tooMany more =>
    obtain rfl := Rehearsal.answers_nil.1 h
    exact hm

private theorem kept_of_permits {c : Client} {answer : Except ObjectStore.Error Unit}
    (hw : s.Ready w) (hm : m.Uploading upload s.chunkSize content count (store w))
    (hfresh : m.uploads.get? upload.id = none) (hpermits : w.services.Permits c .abortUpload)
    (h : Answers w [c.exchange (.abortUpload upload) answer] last) :
    answer = .ok () ∧ m.Kept (store last) := by
  have hc : Full c ∨ Partial c := hpermits.imp_right And.left
  rcases answers_request hw.stores_ne_nil hc h with ⟨-, hanswer⟩ | ⟨hnot, -⟩
  · have hok : answer = .ok () := by
      rw [← abort_of_unhindered hw.unhindered hm.get?, hanswer]
    rw [hok] at hanswer
    obtain ⟨hbuckets, -, huploads⟩ := abort_ok hanswer
    refine ⟨hok, hbuckets.trans hm.buckets, ?_⟩
    rw [huploads, hm.uploads, KeyMap.erase_insert hfresh]
  · exact absurd hpermits hnot

/-- An upload that is aborted is gone, and nothing else is. -/
private theorem kept_of_aborted (hw : s.Ready w)
    (hm : m.Uploading upload s.chunkSize content count (store w))
    (hfresh : m.uploads.get? upload.id = none) (haborted : s.Aborted upload said)
    (h : Answers w said last) : m.Kept (store last) := by
  by_cases hpermits : w.services.Permits s.client .abortUpload
  · cases haborted with
    | once answer final => exact (kept_of_permits hw hm hfresh hpermits h).2
    | twice e denied other set answer =>
      obtain ⟨mid, hfirst, -⟩ := Rehearsal.answers_cons_iff.1 h
      exact absurd (kept_of_permits hw hm hfresh hpermits hfirst).1 (by simp)
  · obtain ⟨fallback, hset, hfull⟩ := hw.aborts.resolve_left hpermits
    cases haborted with
    | once answer final =>
      rcases answers_request hw.stores_ne_nil hw.client h with ⟨hyes, -⟩ | ⟨-, -, e, heq, hdenied⟩
      · exact absurd hyes hpermits
      · rw [final e heq hdenied] at hset
        exact absurd hset (by simp)
    | twice e denied other set answer =>
      obtain ⟨mid, hfirst, hsecond⟩ := Rehearsal.answers_cons_iff.1 h
      obtain rfl : fallback = other := Option.some.inj (hset.symm.trans set)
      rcases answers_request hw.stores_ne_nil hw.client hfirst with ⟨hyes, -⟩ | ⟨-, hsame, -⟩
      · exact absurd hyes hpermits
      · rw [← hsame] at hm
        exact (kept_of_permits (hw.of_answers hfirst) hm hfresh (.inl hfull) hsecond).2

theorem uploading_of_initiate {started : Upload} {bucket key : String} (content : Bytes)
    (hw : s.Ready w)
    (h : Answers w [s.client.exchange (.initiateUpload bucket key) (.ok started)] last) :
    (store w).Uploading ⟨bucket, key, started.id⟩ s.chunkSize content 0 (store last) ∧
      (store w).uploads.get? started.id = none ∧ ((store w).buckets.get? bucket).isSome :=
  uploading_of_started s.chunkSize content hw.numbered (answers_ok hw.stores_ne_nil hw.client h)

/-- A session puts its object into the store as a whole, or does nothing. -/
theorem effect_session {name : String} {outcome : Except Error Uploaded} (hw : s.Ready w)
    (hsession : s.Session stream name said outcome) (h : Answers w said last) :
    match outcome with
    | .ok _ => stream.failure = none ∧
      (store w).Gained s.bucket (s.keyPrefix ++ name) stream.bytes (store last)
    | .error _ => (store w).Kept (store last) := by
  cases hsession with
  | refused cause =>
    rcases answers_error hw.stores_ne_nil hw.client h with halike | ⟨_, _, heq, -⟩
    · exact halike.kept
    · exact absurd heq (by simp)
  | completed started parts final progress hending =>
    have hsession := Session.completed started parts final progress hending
    exact gained_of_session hw.numbered hsession
      (leads_of_granted hw (granted_of_session hsession) h)
  | aborted started parts final stop abort hending haborted =>
    obtain ⟨first, hinitiate, hrest⟩ := Rehearsal.answers_cons_iff.1 h
    obtain ⟨failed, hfailed, habort⟩ := Rehearsal.answers_append.1 hrest
    obtain ⟨mid, huploads, hfinal⟩ := Rehearsal.answers_append.1 hfailed
    obtain ⟨hm, hfresh, hbucket⟩ := uploading_of_initiate stream.bytes hw hinitiate
    have hfirst := hw.of_answers hinitiate
    obtain ⟨-, hmid⟩ := uploading_of_uploads hfirst hm huploads
    have hready := hfirst.of_answers huploads
    have hstopped := uploading_of_ending hready hmid hbucket hending hfinal
    exact kept_of_aborted (hready.of_answers hfinal) hstopped hfresh haborted habort

/-- Opening a part changes nothing in a store. -/
theorem alike_of_openStream {p : Part} {opened : Except Error ByteStream}
    (hw : w.services.stores ≠ []) (h : play p.openStream w = (some opened, last)) :
    (store w).Alike (store last) := by
  obtain ⟨said, hcourse, hsaid⟩ := Rehearsal.play_eq_some_iff.1 h
  unfold Part.openStream at hcourse
  split at hcourse
  · obtain ⟨rfl, -⟩ := Dialogue.course_pure.1 hcourse
    obtain rfl := Rehearsal.answers_nil.1 hsaid
    exact .refl _
  · rename_i c bucket key hcontent
    obtain ⟨answer, rest, rfl, hrest⟩ := Dialogue.course_send_bind.1 hcourse
    obtain rfl : rest = [] := by
      cases answer with
      | error e => exact (Dialogue.course_pure.1 hrest).1
      | ok body => exact (Dialogue.course_pure.1 hrest).1
    refine alike_of_fetching hw ?_ hsaid
    rintro r ⟨⟩
    exact ⟨bucket, key, rfl⟩
  · obtain ⟨answer, rest, rfl, hrest⟩ := Dialogue.course_question_bind.1 hcourse
    obtain rfl : rest = [] := by
      cases answer with
      | error e => exact (Dialogue.course_pure.1 hrest).1
      | ok stream => exact (Dialogue.course_pure.1 hrest).1
    refine alike_of_fetching hw ?_ hsaid
    rintro r ⟨⟩

/-- What becomes of a part: its object is in the store as a whole, or nothing has changed. -/
theorem effect_transferPart {p : Part} {outcome : Except Error Uploaded} (hw : s.Ready w)
    (h : play (s.transferPart p) w = (some outcome, last)) :
    s.Ready last ∧
      match outcome with
      | .ok _ => ∃ stream opened, play p.openStream w = (some (.ok stream), opened) ∧
        stream.failure = none ∧
          (store w).Gained s.bucket (s.keyPrefix ++ p.name) stream.bytes (store last)
      | .error _ => (store w).Kept (store last) := by
  obtain ⟨said, hcourse, hsaid⟩ := Rehearsal.play_eq_some_iff.1 h
  obtain ⟨_, heq, hcalls⟩ := course_transferPart hcourse
  obtain rfl := Option.some.inj heq
  refine ⟨hw.of_answers hsaid, ?_⟩
  cases hcalls with
  | unopened e opening hopened =>
    have hplay := Rehearsal.play_eq_some_iff.2 ⟨said, hopened, hsaid⟩
    exact (alike_of_openStream hw.stores_ne_nil hplay).kept
  | opened stream opening calls hopened _ hsession =>
    obtain ⟨mid, hopening, hcalls⟩ := Rehearsal.answers_append.1 hsaid
    have hplay := Rehearsal.play_eq_some_iff.2 ⟨opening, hopened, hopening⟩
    have hkept := (alike_of_openStream hw.stores_ne_nil hplay).kept
    have heffect := effect_session (hw.of_answers hopening) hsession hcalls
    cases outcome with
    | ok object => exact ⟨stream, mid, hplay, heffect.1, .of_kept hkept heffect.2⟩
    | error e => exact hkept.trans heffect

end Rehearsals

end Transfer.Sink

end BucketTransfer
