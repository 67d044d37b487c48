import BucketTransfer.Proofs.Transfer.Run

/-!
# Transfers without faults

Nothing fails if the store has no faults, the bucket is there, the parts can be read and each fits
into the parts of one upload.
-/
namespace BucketTransfer.Transfer
open ObjectStore (Memory Upload CompletedPart)
open Rehearsal (Answers play)
open Services (Scripted)
open Services.Scripted

/-- A part whose content is at hand, or an object of another bucket of the first store. -/
inductive Part.Available (m : Memory) (bucket : String) : Part → Bytes → Prop where
  | given (name : String) (size : Nat) (stream : ByteStream) (ends : stream.failure = none) :
      Available m bucket ⟨name, size, .given (.ok stream)⟩ stream.bytes
  | object (c : Client) (full : Full c) (other : String) (apart : other ≠ bucket)
      (o : ObjectStore.Summary) (body : Bytes) (held : m.object? other o.key = some body) :
      Available m bucket (.ofObject c other o) body

variable {w mid last : Rehearsal Scripted} {m m' : Memory} {bucket : String} {p : Part}
  {body : Bytes}

/-- An object is streamed as it is held. -/
theorem play_openStream_object {c : Client} (hc : Full c) (hw : w.services.stores ≠ [])
    (hfaults : (store w).Unhindered .getObject) {o : ObjectStore.Summary}
    (h : (store w).object? bucket o.key = some body) :
    ∃ mid, play (Part.ofObject c bucket o).openStream w = (some (.ok (.ofBytes body)), mid) := by
  obtain ⟨mid, hplay, -⟩ := play_send_of_full hw hc (.getObject bucket o.key)
  rw [Memory.getObject_of_unhindered hfaults h] at hplay
  exact ⟨mid, Rehearsal.play_bind hplay rfl⟩

namespace Part.Available

theorem play_openStream (h : p.Available (store w) bucket body) (hw : w.services.stores ≠ [])
    (hfaults : (store w).Unhindered .getObject) :
    ∃ stream mid, play p.openStream w = (some (.ok stream), mid) ∧ stream.failure = none ∧
      stream.bytes = body := by
  cases h with
  | given name size stream ends => exact ⟨stream, w, rfl, ends, rfl⟩
  | object c full other apart o body held =>
    obtain ⟨mid, hplay⟩ := play_openStream_object full hw hfaults held
    exact ⟨_, mid, hplay, rfl, List.append_nil body⟩

theorem of_play_openStream (h : p.Available (store w) bucket body) (hw : w.services.stores ≠ [])
    (hfaults : (store w).Unhindered .getObject) {stream : ByteStream}
    (hplay : play p.openStream w = (some (.ok stream), mid)) :
    stream.failure = none ∧ stream.bytes = body := by
  obtain ⟨stream', mid', hplay', hends, hbytes⟩ := h.play_openStream hw hfaults
  obtain ⟨heq, -⟩ := Prod.mk.inj (hplay.symm.trans hplay')
  obtain rfl : stream = stream' := by simpa using heq
  exact ⟨hends, hbytes⟩

/-- What is put into the bucket does not touch a part. -/
theorem of_gained {key : String} {content : Bytes} (h : p.Available m bucket body)
    (hm : m.Gained bucket key content m') : p.Available m' bucket body := by
  cases h with
  | given name size stream ends => exact .given name size stream ends
  | object c full other apart o body held =>
    refine .object c full other apart o body ?_
    rwa [hm.object?, if_neg fun h => apart h.1]

end Part.Available

namespace Sink
open ObjectStore.Memory
open ByteStream (lt_chunks_of_ends)

/-- A ready sink at a store without faults, whose bucket is there. -/
structure Clear (s : Sink) (w : Rehearsal Scripted) : Prop extends s.Ready w where
  full : Full s.client
  unhindered_all : ∀ operation, (store w).Unhindered operation
  bucket_isSome : ((store w).buckets.get? s.bucket).isSome

variable {s : Sink} {said : List (Exchange World)} {upload : Upload} {parts : List CompletedPart}
  {stream : ByteStream}

private theorem not_ending {stop : Stop} (hw : s.Ready w) (hfull : Full s.client)
    (hfaults : ∀ operation, (store w).Unhindered operation)
    (hm : m.Uploading upload s.chunkSize stream.bytes parts.length (store w))
    (hparts : parts = receipts s.chunkSize stream.bytes 1 parts.length)
    (hbucket : (m.buckets.get? upload.bucket).isSome) (hends : stream.failure = none)
    (hlength : stream.bytes.length ≤ ObjectStore.maxPart * s.chunkSize)
    (hending : s.Ending upload stream parts said (.error stop)) : ¬Answers w said last := by
  intro h
  cases hending with
  | incomplete cause _ hall =>
    have hlast : ¬parts.length < stream.chunks s.chunkSize := Nat.not_lt.2 (Nat.le_of_eq hall.symm)
    rw [lt_chunks_of_ends s.chunkSize_pos hends] at hlast
    have hcontent := content_of_numbered (by omega) hm.get?
    rw [← hparts] at hcontent
    rw [← hm.buckets] at hbucket
    have hok := complete_of_unhindered (hfaults _) hcontent hbucket
    rw [answers_of_full hw.stores_ne_nil hfull h] at hok
    exact absurd hok (by simp)
  | refused cause =>
    obtain ⟨done, hok⟩ : ∃ done, ((store w).answer (.uploadPart
        (s.partUpload upload stream.bytes (parts.length + 1)))).1 = .ok done :=
      uploadPart_of_unhindered (hfaults _) hm.get?
    rw [answers_of_full hw.stores_ne_nil hfull h] at hok
    exact absurd hok (by simp)
  | unreadable message fails => exact absurd (hends.symm.trans fails) (by simp)
  | tooMany more full =>
    rw [lt_chunks_of_ends s.chunkSize_pos hends, full] at more
    rcases more with hzero | hlong
    · exact absurd hzero (by simp [ObjectStore.maxPart])
    · omega

theorem Clear.of_answers (h : s.Clear w) (hsaid : Answers w said last)
    (hbucket : ((store last).buckets.get? s.bucket).isSome) : s.Clear last := by
  refine ⟨h.toReady.of_answers hsaid, h.full, ?_, hbucket⟩
  exact (Scripted.of_answers (P := fun m => ∀ operation, m.Unhindered operation)
    (fun _ r hm operation => unhindered_answer (hm operation) r) h.stores_ne_nil hsaid
    h.unhindered_all).2.2

private theorem not_session {name : String} {e : Error} (hw : s.Clear w)
    (hends : stream.failure = none)
    (hlength : stream.bytes.length ≤ ObjectStore.maxPart * s.chunkSize)
    (hsession : s.Session stream name said (.error e)) : ¬Answers w said last := by
  intro h
  cases hsession with
  | refused cause =>
    obtain ⟨started, hok⟩ : ∃ started, ((store w).answer
        (.initiateUpload s.bucket (s.keyPrefix ++ name))).1 = .ok started :=
      initiate_of_unhindered (hw.unhindered_all _) hw.bucket_isSome
    rw [answers_of_full hw.stores_ne_nil hw.full h] at hok
    exact absurd hok (by simp)
  | aborted started parts final stop abort hending haborted =>
    obtain ⟨first, hinitiate, hrest⟩ := Rehearsal.answers_cons_iff.1 h
    obtain ⟨failed, hfailed, -⟩ := Rehearsal.answers_append.1 hrest
    obtain ⟨mid, huploads, hfinal⟩ := Rehearsal.answers_append.1 hfailed
    obtain ⟨hm, -, hbucket⟩ := uploading_of_initiate stream.bytes hw.toReady hinitiate
    have hfirst := hw.of_answers hinitiate (hm.buckets ▸ hbucket)
    obtain ⟨hparts, hmid⟩ := uploading_of_uploads hfirst.toReady hm huploads
    rw [Nat.zero_add] at hparts hmid
    have hready := hfirst.of_answers huploads (hmid.buckets ▸ hbucket)
    exact not_ending hready.toReady hready.full hready.unhindered_all hmid hparts hbucket hends
      hlength hending hfinal

/-- A part that can be read is put into the store. -/
theorem play_transferPart_of_available {p : Part} (hw : s.Clear w)
    (hp : p.Available (store w) s.bucket body)
    (hlength : body.length ≤ ObjectStore.maxPart * s.chunkSize) :
    ∃ object mid, play (s.transferPart p) w = (some (.ok object), mid) := by
  obtain ⟨outcome, mid, hplay⟩ :=
    Rehearsal.exists_play_eq_some exists_answer (finishes_transferPart (s := s) p) w
  cases outcome with
  | ok object => exact ⟨object, mid, hplay⟩
  | error e =>
    exfalso
    have hstores := hw.stores_ne_nil
    obtain ⟨said, hcourse, hsaid⟩ := Rehearsal.play_eq_some_iff.1 hplay
    obtain ⟨_, heq, hcalls⟩ := course_transferPart hcourse
    obtain rfl := Option.some.inj heq
    cases hcalls with
    | unopened e opening hopened =>
      obtain ⟨stream, opened, hopens, -⟩ := hp.play_openStream hstores (hw.unhindered_all _)
      have hfails := Rehearsal.play_eq_some_iff.2 ⟨said, hopened, hsaid⟩
      obtain ⟨heq, -⟩ := Prod.mk.inj (hopens.symm.trans hfails)
      exact absurd heq (by simp)
    | opened stream opening calls hopened _ hsession =>
      obtain ⟨mid', hopening, hcalls⟩ := Rehearsal.answers_append.1 hsaid
      have hopens := Rehearsal.play_eq_some_iff.2 ⟨opening, hopened, hopening⟩
      obtain ⟨hends, rfl⟩ := hp.of_play_openStream hstores (hw.unhindered_all _) hopens
      have halike := alike_of_openStream hstores hopens
      have hclear := hw.of_answers hopening (halike.buckets ▸ hw.bucket_isSome)
      exact not_session hclear hends hlength hsession hcalls

/-- Parts that can be read are put into the store, each with its content. -/
theorem play_transfer_of_available (moved : List (Part × Bytes)) (hw : s.Clear w)
    (hmoved : ∀ q ∈ moved, q.1.Available (store w) s.bucket q.2 ∧
      q.2.length ≤ ObjectStore.maxPart * s.chunkSize) :
    ∃ summary last, play (s.transfer (moved.map Prod.fst)) w = (some (.ok summary), last) ∧
      s.Transferred w moved last ∧ s.Clear last := by
  induction moved generalizing w with
  | nil => exact ⟨{}, w, rfl, .nil w, hw⟩
  | cons q moved ih =>
    obtain ⟨⟨hq, hlength⟩, hrest⟩ := List.forall_mem_cons.1 hmoved
    obtain ⟨object, mid, hpart⟩ := play_transferPart_of_available hw hq hlength
    obtain ⟨-, stream, opened, hopens, hends, hgained⟩ := effect_transferPart hw.toReady hpart
    obtain ⟨said, -, hsaid⟩ := Rehearsal.play_eq_some_iff.1 hpart
    have hbucket : ((store mid).buckets.get? s.bucket).isSome := by
      obtain ⟨objects, -, hbuckets⟩ := hgained.buckets
      rw [hbuckets, KeyMap.get?_insert_self]
      rfl
    have hothers := fun q hq => (hrest q hq).imp_left fun h => h.of_gained hgained
    obtain ⟨summary, last, hplay, htransferred, hlast⟩ := ih (hw.of_answers hsaid hbucket) hothers
    obtain ⟨-, hbytes⟩ := hq.of_play_openStream hw.stores_ne_nil (hw.unhindered_all _) hopens
    refine ⟨_, last, Rehearsal.play_bind hpart (Rehearsal.play_bind hplay rfl), ?_, hlast⟩
    obtain ⟨p, body⟩ := q
    obtain rfl : stream.bytes = body := hbytes
    exact .cons p stream object hopens hends hpart htransferred

end Sink

end BucketTransfer.Transfer
