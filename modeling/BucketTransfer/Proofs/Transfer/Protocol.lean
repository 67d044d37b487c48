import BucketTransfer.Proofs.ByteStream.Chunks
import BucketTransfer.Proofs.Dialogue.Task
import BucketTransfer.Transfer.Sink

/-!
# The protocol of a sink

The requests that a sink makes, whatever its clients answer: one start for each part that can be
opened, the chunks of its content in order under the numbers from 1 on, and one completion with what
the client answered to them. Whatever stops an upload that was started, it is aborted once, and once
more through the other client only if the first one may not abort.
-/
namespace BucketTransfer
open ObjectStore (Upload CompletedPart PartUpload)

namespace Transfer
open ByteStream (chunk Past)
open Dialogue (Course)

/-- A part is always opened or found not to be there. -/
theorem Part.finishes_openStream (p : Part) : p.openStream.Finishes := by
  intro said result h
  unfold Part.openStream at h
  split at h
  · simp [(Dialogue.course_pure.1 h).2]
  · obtain ⟨answer, rest, -, h⟩ := Dialogue.course_send_bind.1 h
    cases answer <;> simp [(Dialogue.course_pure.1 h).2]
  · obtain ⟨answer, rest, -, h⟩ := Dialogue.course_question_bind.1 h
    cases answer <;> simp [(Dialogue.course_pure.1 h).2]

/-- What is asked to open a part: its object, of the part's own client, or its file. -/
inductive Part.Reads (p : Part) : Exchange World → Prop where
  | object (client : Client) (bucket key : String) (content : p.content = .object client bucket key)
      (answer : Except ObjectStore.Error ObjectStore.Body) :
      Reads p (client.exchange (.getObject bucket key) answer)
  | file (path : String) (content : p.content = .file path)
      (answer : Except Files.Fault ByteStream) : Reads p ⟨.file (.read path), answer⟩

/-- Nothing else is asked to open a part. -/
theorem Part.reads_of_opening {p : Part} {said : List (Exchange World)}
    {opened : Option (Except Error ByteStream)} (h : Course p.openStream said opened) :
    ∀ e ∈ said, p.Reads e := by
  unfold Part.openStream at h
  split at h
  · obtain ⟨rfl, -⟩ := Dialogue.course_pure.1 h
    exact fun _ he => absurd he List.not_mem_nil
  · rename_i client bucket key hcontent
    obtain ⟨answer, rest, rfl, hrest⟩ := Dialogue.course_send_bind.1 h
    obtain rfl : rest = [] := by
      cases answer with
      | error cause => exact (Dialogue.course_pure.1 hrest).1
      | ok body => exact (Dialogue.course_pure.1 hrest).1
    exact List.forall_mem_singleton.2 (.object client bucket key hcontent answer)
  · rename_i path hcontent
    obtain ⟨answer, rest, rfl, hrest⟩ := Dialogue.course_question_bind.1 h
    obtain rfl : rest = [] := by
      cases answer with
      | error fault => exact (Dialogue.course_pure.1 hrest).1
      | ok stream => exact (Dialogue.course_pure.1 hrest).1
    exact List.forall_mem_singleton.2 (.file path hcontent answer)

/-- The only request to a client that opens a part is for the part's own object. -/
theorem Part.Reads.request {p : Part} {e : Exchange World} (h : p.Reads e) {c : Client}
    {r : ObjectStore.Request} (hquestion : e.question = .request c r) :
    ∃ bucket key, p.content = .object c bucket key ∧ r = .getObject bucket key := by
  cases h with
  | object client bucket key content answer =>
    injection hquestion with hclient hrequest
    subst hclient
    exact ⟨bucket, key, content, hrequest.symm⟩
  | file => cases hquestion

namespace Sink
variable (s : Sink) (upload : Upload) (stream : ByteStream)

/-- The request by which the chunk with a number is uploaded. -/
def partUpload (content : Bytes) (number : Nat) : PartUpload :=
  ⟨upload.bucket, upload.key, upload.id, number, (number - 1) * s.chunkSize,
    chunk s.chunkSize number content⟩

/-- The uploads of chunks from a number on, with what was answered to them. -/
def uploads (content : Bytes) (first : Nat) (parts : List CompletedPart) : List (Exchange World) :=
  (parts.zipIdx first).map fun (part, number) =>
    s.client.exchange (.uploadPart (s.partUpload upload content number)) (.ok part)

/-- A request of the sink's own client that was granted. -/
def Granted (e : Exchange World) : Prop :=
  ∃ (r : ObjectStore.Request) (reply : r.Reply), e = s.client.exchange r (.ok reply)

/-- What is asked for after the parts that were uploaded, and what the upload comes to. -/
inductive Ending (parts : List CompletedPart) :
    List (Exchange World) → Except Stop Progress → Prop where
  | completed (ends : stream.failure = none) (all : parts.length = stream.chunks s.chunkSize)
      (fits : parts.length ≤ ObjectStore.maxPart) :
      Ending parts [s.client.exchange (.completeUpload upload parts) (.ok ())]
        (.ok ⟨parts.reverse, stream.bytes.length⟩)
  | incomplete (cause : ObjectStore.Error) (ends : stream.failure = none)
      (all : parts.length = stream.chunks s.chunkSize)
      (fits : parts.length ≤ ObjectStore.maxPart) :
      Ending parts [s.client.exchange (.completeUpload upload parts) (.error cause)]
        (.error (.complete parts.length cause))
  | refused (cause : ObjectStore.Error) (more : parts.length < stream.chunks s.chunkSize)
      (fits : parts.length < ObjectStore.maxPart) :
      Ending parts
        [s.client.exchange
          (.uploadPart (s.partUpload upload stream.bytes (parts.length + 1))) (.error cause)]
        (.error (.store (parts.length + 1) cause))
  | unreadable (message : String) (fails : stream.failure = some message)
      (all : parts.length = stream.chunks s.chunkSize)
      (fits : parts.length ≤ ObjectStore.maxPart) :
      Ending parts [] (.error (.read (parts.length + 1) message))
  | tooMany (more : parts.length < stream.chunks s.chunkSize)
      (full : parts.length = ObjectStore.maxPart) :
      Ending parts [] (.error (.store (parts.length + 1) tooManyParts))

/-- The requests that abort an upload. -/
inductive Aborted : List (Exchange World) → Prop where
  | once (answer : Except ObjectStore.Error Unit)
      (final : ∀ e, answer = .error e → e.reason = .accessDenied → s.abortClient = none) :
      Aborted [s.client.exchange (.abortUpload upload) answer]
  | twice (e : ObjectStore.Error) (denied : e.reason = .accessDenied) (other : Client)
      (set : s.abortClient = some other) (answer : Except ObjectStore.Error Unit) :
      Aborted [s.client.exchange (.abortUpload upload) (.error e),
        other.exchange (.abortUpload upload) answer]

/-- The requests for a part of some name that was opened, and what they come to. -/
inductive Session (name : String) :
    List (Exchange World) → Except Error Uploaded → Prop where
  | refused (cause : ObjectStore.Error) :
      Session name
        [s.client.exchange (.initiateUpload s.bucket (s.keyPrefix ++ name)) (.error cause)]
        (.error (s.failure name 1 cause.message))
  | completed (started : Upload) (parts : List CompletedPart) (last : List (Exchange World))
      (progress : Progress)
      (ending : s.Ending ⟨s.bucket, s.keyPrefix ++ name, started.id⟩ stream parts last
        (.ok progress)) :
      Session name
        (s.client.exchange (.initiateUpload s.bucket (s.keyPrefix ++ name)) (.ok started) ::
          (s.uploads ⟨s.bucket, s.keyPrefix ++ name, started.id⟩ stream.bytes 1 parts ++ last))
        (.ok ⟨s.keyPrefix ++ name, progress.completed.length, progress.offset⟩)
  | aborted (started : Upload) (parts : List CompletedPart) (last : List (Exchange World))
      (stop : Stop) (abort : List (Exchange World))
      (ending : s.Ending ⟨s.bucket, s.keyPrefix ++ name, started.id⟩ stream parts last
        (.error stop))
      (aborted : s.Aborted ⟨s.bucket, s.keyPrefix ++ name, started.id⟩ abort) :
      Session name
        (s.client.exchange (.initiateUpload s.bucket (s.keyPrefix ++ name)) (.ok started) ::
          (s.uploads ⟨s.bucket, s.keyPrefix ++ name, started.id⟩ stream.bytes 1 parts ++ last ++
            abort))
        (.error (s.failure name stop.part stop.message))

/-- What is said about a part: what opens it, and the sink's requests for it if it could be opened.
There are none if it could not. -/
inductive PartCalls (p : Part) : List (Exchange World) → Except Error Uploaded → Prop where
  | unopened (e : Error) (opening : List (Exchange World))
      (opened : Course p.openStream opening (some (.error e)))
      (reads : ∀ x ∈ opening, p.Reads x) :
      PartCalls p opening (.error (s.failure p.name 1 e.message))
  | opened (stream : ByteStream) (opening calls : List (Exchange World))
      (opened : Course p.openStream opening (some (.ok stream)))
      (outcome : Except Error Uploaded) (session : s.Session stream p.name calls outcome)
      (reads : ∀ x ∈ opening, p.Reads x) :
      PartCalls p (opening ++ calls) outcome

/-- What is said about parts: each is dealt with after the one before it, up to one that fails. -/
inductive Calls : List Part → List (Exchange World) → Except Error Summary → Prop where
  | nil : Calls [] [] (.ok {})
  | failed (p : Part) (rest : List Part) (said : List (Exchange World)) (e : Error)
      (part : s.PartCalls p said (.error e)) : Calls (p :: rest) said (.error e)
  | next (p : Part) (rest : List Part) (said later : List (Exchange World)) (object : Uploaded)
      (outcome : Except Error Summary) (part : s.PartCalls p said (.ok object))
      (others : Calls rest later outcome) :
      Calls (p :: rest) (said ++ later) (outcome.map fun t => ⟨object :: t.objects⟩)

variable {s upload stream}

/-- What the next chunk of a stream can be after some chunks were read, all of them whole. -/
private inductive Next (s : Sink) (whole : ByteStream) (count : Nat) :
    Except Stop (Option (Bytes × ByteStream)) → Prop where
  | failed (message : String) (fails : whole.failure = some message)
      (all : count = whole.chunks s.chunkSize) :
      Next s whole count (.error (.read (count + 1) message))
  | ended (ends : whole.failure = none) (all : count = whole.chunks s.chunkSize)
      (length : whole.bytes.length = count * s.chunkSize) : Next s whole count (.ok none)
  | chunk (piece : Bytes) (rest : ByteStream)
      (eq : piece = chunk s.chunkSize (count + 1) whole.bytes)
      (more : count < whole.chunks s.chunkSize)
      (short : piece.length < s.chunkSize → whole.failure = none ∧
        count + 1 = whole.chunks s.chunkSize ∧
          whole.bytes.length = count * s.chunkSize + piece.length)
      (onward : ¬piece.length < s.chunkSize →
        Past whole s.chunkSize (count + 1) rest ∧ piece.length = s.chunkSize) :
      Next s whole count (.ok (some (piece, rest)))

private theorem next_nextChunk {whole : ByteStream} {p : Progress}
    (h : Past whole s.chunkSize p.completed.length stream) :
    Next s whole p.completed.length (s.nextChunk p stream) := by
  have hsize := s.chunkSize_pos
  cases hread : stream.read s.chunkSize with
  | error message =>
    obtain ⟨hfails, hall⟩ := h.of_read_error hread
    simpa [nextChunk, hread, Progress.number] using Next.failed message hfails hall
  | ok read =>
    obtain ⟨piece, rest⟩ := read
    by_cases hend : piece = [] ∧ p.completed ≠ []
    · obtain ⟨rfl, hne⟩ := hend
      obtain ⟨hends, hall, hlength⟩ := h.of_empty hsize (List.length_pos_iff.2 hne) hread
      simpa [nextChunk, hread, hne] using Next.ended hends hall hlength
    · have hsome : piece ≠ [] ∨ p.completed.length = 0 := by
        rw [List.length_eq_zero_iff]
        by_cases hpiece : piece = []
        · exact .inr (by simpa [hpiece] using hend)
        · exact .inl hpiece
      have hmore := h.lt_chunks hsize hread hsome
      have hlength := h.length_of_read hread
      have hnext : s.nextChunk p stream = .ok (some (piece, rest)) := by
        simpa [nextChunk, hread] using hend
      rw [hnext]
      refine .chunk piece rest (h.of_read hread).1 hmore (fun hshort => ?_) fun hwhole => ?_
      · obtain ⟨hends, hlast, hbytes⟩ := h.of_short hsize hread hshort
        exact ⟨hends, by omega, hbytes⟩
      · exact ⟨h.of_whole hread hwhole, by omega⟩

theorem uploads_cons (content : Bytes) (first : Nat) (part : CompletedPart)
    (parts : List CompletedPart) :
    s.uploads upload content first (part :: parts) =
      s.client.exchange (.uploadPart (s.partUpload upload content first)) (.ok part) ::
        s.uploads upload content (first + 1) parts := by
  simp [uploads]

private theorem course_finish {p : Progress} {said : List (Exchange World)}
    {result : Option (Except Stop Progress)} (h : Course (s.finish upload p) said result) :
    (said = [s.client.exchange (.completeUpload upload p.completed.reverse) (.ok ())] ∧
        result = some (.ok p)) ∨
      ∃ e, said = [s.client.exchange (.completeUpload upload p.completed.reverse) (.error e)] ∧
        result = some (.error (.complete p.completed.length e)) := by
  obtain ⟨answer, rest, rfl, hrest⟩ := Dialogue.course_send_bind.1 h
  cases answer with
  | ok value =>
    obtain ⟨rfl, rfl⟩ := Dialogue.course_pure.1 hrest
    exact .inl ⟨rfl, rfl⟩
  | error e =>
    obtain ⟨rfl, rfl⟩ := Dialogue.course_pure.1 hrest
    exact .inr ⟨e, rfl, rfl⟩

/-- Putting an upload together after all its parts ends it. -/
private theorem ending_of_finish {whole : ByteStream} {p : Progress}
    {said : List (Exchange World)} {result : Option (Except Stop Progress)}
    (hends : whole.failure = none) (hall : p.completed.length = whole.chunks s.chunkSize)
    (hfits : p.completed.length ≤ ObjectStore.maxPart) (hoffset : p.offset = whole.bytes.length)
    (h : Course (s.finish upload p) said result) :
    ∃ outcome, result = some outcome ∧ s.Ending upload whole p.completed.reverse said outcome := by
  rw [← List.length_reverse] at hall hfits
  rcases course_finish h with ⟨rfl, rfl⟩ | ⟨e, rfl, rfl⟩
  · refine ⟨_, rfl, ?_⟩
    have hp : p = ⟨p.completed.reverse.reverse, whole.bytes.length⟩ := by
      rw [List.reverse_reverse, ← hoffset]
    have hending : s.Ending upload whole p.completed.reverse _ _ := .completed hends hall hfits
    rwa [← hp] at hending
  · refine ⟨_, rfl, ?_⟩
    have hending : s.Ending upload whole p.completed.reverse _ _ :=
      .incomplete e hends hall hfits
    rwa [List.length_reverse] at hending

/-- Without another chunk an upload ends where it stands. -/
private theorem chunk_or_ending {whole : ByteStream} {left : Nat} {p : Progress}
    (hfits : p.completed.length ≤ ObjectStore.maxPart)
    (hoffset : p.offset = p.completed.length * s.chunkSize)
    (hpast : Past whole s.chunkSize p.completed.length stream) {said : List (Exchange World)}
    {result : Option (Except Stop Progress)}
    (h : Course (s.uploadFrom upload left p stream) said result) :
    (∃ piece rest, s.nextChunk p stream = .ok (some (piece, rest)) ∧
      Next s whole p.completed.length (.ok (some (piece, rest)))) ∨
      ∃ outcome, result = some outcome ∧
        s.Ending upload whole p.completed.reverse said outcome := by
  have hnext := next_nextChunk hpast
  have hlength : p.completed.reverse.length = p.completed.length := List.length_reverse
  generalize hvalue : s.nextChunk p stream = next at hnext
  cases hnext with
  | failed message hfails hall =>
    have hstop : s.uploadFrom upload left p stream =
        pure (.error (.read (p.completed.length + 1) message)) := by
      cases left <;> simp [uploadFrom, hvalue]
    rw [hstop] at h
    obtain ⟨rfl, rfl⟩ := Dialogue.course_pure.1 h
    refine .inr ⟨_, rfl, ?_⟩
    have hending : s.Ending upload whole p.completed.reverse _ _ :=
      .unreadable message hfails (hlength.trans hall) (by omega)
    rwa [hlength] at hending
  | ended hends hall hbytes =>
    have hfinish : s.uploadFrom upload left p stream = s.finish upload p := by
      cases left <;> simp [uploadFrom, hvalue]
    rw [hfinish] at h
    exact .inr (ending_of_finish hends hall hfits (hoffset.trans hbytes.symm) h)
  | chunk piece rest heq hmore hshort honward =>
    exact .inl ⟨piece, rest, rfl, .chunk piece rest heq hmore hshort honward⟩

/-- What is sent with some progress is the chunk with the next number. -/
private theorem partUpload_eq {whole : ByteStream} {p : Progress} {piece : Bytes}
    (hoffset : p.offset = p.completed.length * s.chunkSize)
    (hpiece : piece = chunk s.chunkSize (p.completed.length + 1) whole.bytes) :
    (⟨upload.bucket, upload.key, upload.id, p.number, p.offset, piece⟩ : PartUpload) =
      s.partUpload upload whole.bytes (p.completed.length + 1) := by
  rw [partUpload, hpiece, hoffset, Progress.number, Nat.add_sub_cancel]

private theorem ending_of_tooMany {whole : ByteStream} {p : Progress}
    (hmore : p.completed.length < whole.chunks s.chunkSize)
    (hfull : p.completed.length = ObjectStore.maxPart) :
    s.Ending upload whole p.completed.reverse [] (.error (.store p.number tooManyParts)) := by
  rw [← List.length_reverse] at hmore hfull
  rw [Progress.number, ← List.length_reverse]
  exact .tooMany hmore hfull

private theorem ending_of_refused {whole : ByteStream} {p : Progress} (cause : ObjectStore.Error)
    (hmore : p.completed.length < whole.chunks s.chunkSize)
    (hfits : p.completed.length < ObjectStore.maxPart) :
    s.Ending upload whole p.completed.reverse
      [s.client.exchange
        (.uploadPart (s.partUpload upload whole.bytes (p.completed.length + 1))) (.error cause)]
      (.error (.store p.number cause)) := by
  rw [← List.length_reverse] at hmore hfits
  rw [Progress.number, ← List.length_reverse]
  exact .refused cause hmore hfits

/-- The rest of an upload: the chunks from the next one on, and what ends it. -/
theorem course_uploadFrom {whole : ByteStream} (left : Nat) (p : Progress) (stream : ByteStream)
    (hleft : p.completed.length + left = ObjectStore.maxPart)
    (hoffset : p.offset = p.completed.length * s.chunkSize)
    (hpast : Past whole s.chunkSize p.completed.length stream) {said : List (Exchange World)}
    {result : Option (Except Stop Progress)}
    (h : Course (s.uploadFrom upload left p stream) said result) :
    ∃ parts last outcome, result = some outcome ∧
      said = s.uploads upload whole.bytes (p.completed.length + 1) parts ++ last ∧
      s.Ending upload whole (p.completed.reverse ++ parts) last outcome := by
  induction left generalizing p stream said with
  | zero =>
    rcases chunk_or_ending (by omega) hoffset hpast h with ⟨piece, rest, hvalue, hnext⟩ |
      ⟨outcome, rfl, hending⟩
    · cases hnext with
      | chunk _ _ _ hmore =>
        simp only [uploadFrom, hvalue] at h
        obtain ⟨rfl, rfl⟩ := Dialogue.course_pure.1 h
        refine ⟨[], [], _, rfl, rfl, ?_⟩
        rw [List.append_nil]
        exact ending_of_tooMany hmore hleft
    · exact ⟨[], said, outcome, rfl, rfl, by rwa [List.append_nil]⟩
  | succ left ih =>
    rcases chunk_or_ending (by omega) hoffset hpast h with ⟨piece, rest, hvalue, hnext⟩ |
      ⟨outcome, rfl, hending⟩
    · cases hnext with
      | chunk _ _ hpiece hmore hshort honward =>
        simp only [uploadFrom, hvalue, partUpload_eq hoffset hpiece] at h
        obtain ⟨answer, later, rfl, hlater⟩ := Dialogue.course_send_bind.1 h
        cases answer with
        | error e =>
          obtain ⟨rfl, rfl⟩ := Dialogue.course_pure.1 hlater
          refine ⟨[], _, _, rfl, rfl, ?_⟩
          rw [List.append_nil]
          exact ending_of_refused e hmore (by omega)
        | ok part =>
          have hlength : (p.record part piece.length).completed.length =
              p.completed.length + 1 := rfl
          simp only at hlater
          split at hlater
          · rename_i hsmall
            obtain ⟨hends, hall, hbytes⟩ := hshort hsmall
            have hlast : (p.record part piece.length).offset = whole.bytes.length := by
              rw [hbytes, ← hoffset]
              rfl
            obtain ⟨outcome, rfl, hending⟩ := ending_of_finish
              (p := p.record part piece.length) hends hall (by omega) hlast hlater
            refine ⟨[part], later, outcome, rfl, rfl, ?_⟩
            simpa [Progress.record] using hending
          · rename_i hbig
            obtain ⟨honward, hsize⟩ := honward hbig
            have hnext : (p.record part piece.length).offset =
                (p.record part piece.length).completed.length * s.chunkSize := by
              rw [hlength, Nat.succ_mul, ← hoffset, ← hsize]
              rfl
            obtain ⟨parts, last, outcome, rfl, rfl, hending⟩ :=
              ih (p.record part piece.length) rest (by omega) hnext honward hlater
            refine ⟨part :: parts, last, outcome, rfl, ?_, ?_⟩
            · rw [uploads_cons]
              rfl
            · simpa [Progress.record] using hending
    · exact ⟨[], said, outcome, rfl, rfl, by rwa [List.append_nil]⟩

theorem course_abort {said : List (Exchange World)} {result : Option Unit}
    (h : Course (s.abort upload) said result) : result = some () ∧ s.Aborted upload said := by
  obtain ⟨answer, rest, rfl, hrest⟩ := Dialogue.course_send_bind.1 h
  cases answer with
  | ok value =>
    obtain ⟨rfl, rfl⟩ := Dialogue.course_pure.1 hrest
    exact ⟨rfl, .once (.ok value) (by simp)⟩
  | error e =>
    cases hother : s.abortClient with
    | none =>
      simp only [hother] at hrest
      obtain ⟨rfl, rfl⟩ := Dialogue.course_pure.1 hrest
      exact ⟨rfl, .once (.error e) fun _ _ _ => hother⟩
    | some other =>
      simp only [hother] at hrest
      split at hrest
      · rename_i hdenied
        obtain ⟨answer, last, rfl, hlast⟩ := Dialogue.course_send_bind.1 hrest
        obtain ⟨rfl, rfl⟩ := Dialogue.course_pure.1 hlast
        exact ⟨rfl, .twice e hdenied other hother answer⟩
      · rename_i hallowed
        obtain ⟨rfl, rfl⟩ := Dialogue.course_pure.1 hrest
        refine ⟨rfl, .once (.error e) fun e' he hdenied => ?_⟩
        rw [← Except.error.inj he] at hdenied
        exact absurd hdenied hallowed

theorem finishes_abort : (s.abort upload).Finishes := fun _ _ h => by
  rw [(course_abort h).1]
  rfl

/-- An upload from the start on. -/
theorem course_upload {said : List (Exchange World)} {result : Option (Except Stop Progress)}
    (h : Course (s.uploadFrom upload ObjectStore.maxPart {} stream) said result) :
    ∃ parts last outcome, result = some outcome ∧
      said = s.uploads upload stream.bytes 1 parts ++ last ∧
      s.Ending upload stream parts last outcome := by
  simpa using course_uploadFrom ObjectStore.maxPart {} stream (by simp) (by simp)
    (.zero stream _) h

theorem finishes_upload : (s.uploadFrom upload ObjectStore.maxPart {} stream).Finishes :=
  fun _ _ h => by
    obtain ⟨_, _, _, rfl, -⟩ := course_upload h
    rfl

theorem course_transferPart {p : Part} {said : List (Exchange World)}
    {result : Option (Except Error Uploaded)} (h : Course (s.transferPart p) said result) :
    ∃ outcome, result = some outcome ∧ s.PartCalls p said outcome := by
  obtain ⟨opening, calls, opened, rfl, hopen, hcalls⟩ := p.finishes_openStream.course_bind.1 h
  cases opened with
  | error e =>
    obtain ⟨rfl, rfl⟩ := Dialogue.course_pure.1 hcalls
    rw [List.append_nil]
    exact ⟨_, rfl, .unopened e opening hopen (Part.reads_of_opening hopen)⟩
  | ok stream =>
    suffices ∃ outcome, result = some outcome ∧ s.Session stream p.name calls outcome by
      obtain ⟨outcome, rfl, hsession⟩ := this
      exact ⟨outcome, rfl,
        .opened stream opening calls hopen outcome hsession (Part.reads_of_opening hopen)⟩
    obtain ⟨answer, later, rfl, hlater⟩ := Dialogue.course_send_bind.1 hcalls
    cases answer with
    | error e =>
      obtain ⟨rfl, rfl⟩ := Dialogue.course_pure.1 hlater
      exact ⟨_, rfl, .refused e⟩
    | ok started =>
      obtain ⟨sent, rest, outcome, rfl, hsent, hrest⟩ := finishes_upload.course_bind.1 hlater
      obtain ⟨parts, last, _, heq, rfl, hending⟩ := course_upload hsent
      obtain rfl := Option.some.inj heq
      cases outcome with
      | ok progress =>
        obtain ⟨rfl, rfl⟩ := Dialogue.course_pure.1 hrest
        rw [List.append_nil]
        exact ⟨_, rfl, .completed started parts last progress hending⟩
      | error stop =>
        obtain ⟨abort, _, _, rfl, habort, hend⟩ := finishes_abort.course_bind.1 hrest
        obtain ⟨rfl, rfl⟩ := Dialogue.course_pure.1 hend
        rw [List.append_nil]
        exact ⟨_, rfl, .aborted started parts last stop abort hending (course_abort habort).2⟩

theorem finishes_transferPart (p : Part) : (s.transferPart p).Finishes := fun _ _ h => by
  obtain ⟨_, rfl, -⟩ := course_transferPart h
  rfl

/-- Every course of a transfer follows the protocol and comes to something. -/
theorem course_transfer {parts : List Part} {said : List (Exchange World)}
    {result : Option (Except Error Summary)} (h : Course (s.transfer parts) said result) :
    ∃ outcome, result = some outcome ∧ s.Calls parts said outcome := by
  induction parts generalizing said result with
  | nil =>
    obtain ⟨rfl, rfl⟩ := Dialogue.course_pure.1 h
    exact ⟨_, rfl, .nil⟩
  | cons part rest ih =>
    obtain ⟨first, later, outcome, rfl, hfirst, hlater⟩ :=
      (finishes_transferPart part).course_bind.1 h
    obtain ⟨_, heq, hcalls⟩ := course_transferPart hfirst
    obtain rfl := Option.some.inj heq
    cases outcome with
    | error e =>
      obtain ⟨rfl, rfl⟩ := Dialogue.course_pure.1 hlater
      rw [List.append_nil]
      exact ⟨_, rfl, .failed part rest first e hcalls⟩
    | ok object =>
      have hfinishes : (s.transfer rest).Finishes := fun _ _ hrest => by
        obtain ⟨_, rfl, -⟩ := ih hrest
        rfl
      obtain ⟨others, _, outcome, rfl, hothers, hend⟩ := hfinishes.course_bind.1 hlater
      obtain ⟨_, heq, hcalls'⟩ := ih hothers
      obtain rfl := Option.some.inj heq
      obtain ⟨rfl, rfl⟩ := Dialogue.course_pure.1 hend
      rw [List.append_nil]
      exact ⟨_, rfl, .next part rest first others object outcome hcalls hcalls'⟩

section Granted
variable {name : String} {said : List (Exchange World)} {object : Uploaded}

theorem granted_of_uploads {content : Bytes} {first : Nat} {parts : List CompletedPart} :
    ∀ e ∈ s.uploads upload content first parts, s.Granted e := by
  intro e he
  obtain ⟨⟨part, number⟩, -, rfl⟩ := List.mem_map.1 he
  exact ⟨_, _, rfl⟩

/-- A session comes to an object only if all that it asks for is granted. -/
theorem granted_of_session (h : s.Session stream name said (.ok object)) :
    ∀ e ∈ said, s.Granted e := by
  cases h with
  | completed started parts last progress ending =>
    cases ending with
    | completed =>
      exact List.forall_mem_cons.2 ⟨⟨_, _, rfl⟩, List.forall_mem_append.2
        ⟨granted_of_uploads, List.forall_mem_singleton.2 ⟨_, _, rfl⟩⟩⟩

theorem object_of_session (h : s.Session stream name said (.ok object)) :
    object.key = s.keyPrefix ++ name ∧ object.size = stream.bytes.length := by
  cases h with
  | completed started parts last progress ending =>
    cases ending with
    | completed => exact ⟨rfl, rfl⟩

end Granted

end Sink

/-- A transfer follows the protocol of the sink, whatever is answered at any time. For a part that
cannot be opened nothing is asked but what reads the part itself. -/
theorem converse_transfer (client : Client) (abortClient : Option Client)
    (bucket keyPrefix : String) (chunkSize : Nat) (parts : List Part)
    (answer : List (Exchange World) → (q : World.Question) → q.Answer) :
    let sink := { Sink.ofChunks client bucket keyPrefix chunkSize with abortClient }
    ∃ said outcome, (sink.transfer parts).converse answer [] = (said, some outcome) ∧
      sink.Calls parts said outcome := by
  intro sink
  obtain ⟨outcome, hresult, hcalls⟩ :=
    Sink.course_transfer (Dialogue.course_converse answer (sink.transfer parts) [])
  exact ⟨_, outcome, Prod.ext rfl hresult, hcalls⟩

end Transfer

end BucketTransfer
