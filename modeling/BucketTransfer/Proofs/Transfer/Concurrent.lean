import BucketTransfer.Proofs.Dialogue.Interleaved
import BucketTransfer.Proofs.ObjectStore.Uploads
import BucketTransfer.Proofs.Transfer.Protocol

/-!
# Transfers side by side

Any number of sinks transfer their parts to one store at the same time, in any order of their calls
and with faults at any time. A sink names only uploads that it has started itself, so no upload is
touched by two sinks, and what is completed is the whole content of one part.
-/
namespace BucketTransfer.Transfer
open ObjectStore (Memory Upload CompletedPart named? started? received? Transfers event? Completes)
open ObjectStore.Memory (Serves numbered receipts uploadId nodup_started started_of_leads
  object?_of_leads get?_of_leads get?_eq_none_of_leads eq_receipts content_of_numbered)
open ByteStream (chunk lt_chunks_of_ends)
open Dialogue (Course)

private theorem exists_split {α : Type} {front back before after : List α} {x : α}
    (h : front ++ back = before ++ x :: after) :
    (∃ rest, front = before ++ x :: rest ∧ after = rest ++ back) ∨
      ∃ rest, before = front ++ rest ∧ back = rest ++ x :: after := by
  rcases List.append_eq_append_iff.1 h with ⟨rest, hbefore, hback⟩ | ⟨rest, hfront, hafter⟩
  · exact .inr ⟨rest, hbefore, hback⟩
  · cases rest with
    | nil =>
      rw [List.nil_append] at hafter
      exact .inr ⟨[], by simpa using hfront.symm, hafter.symm⟩
    | cons y rest =>
      obtain ⟨rfl, rfl⟩ := List.cons.inj hafter
      exact .inl ⟨rest, hfront, rfl⟩

/-- No upload is named before it was started. -/
def Rooted (said : List (Exchange World)) : Prop :=
  ∀ before e after, said = before ++ e :: after → ∀ id, named? e = some id →
    id ∈ before.filterMap started?

section Rooted
variable {said later : List (Exchange World)} {e : Exchange World} {id : String}

theorem rooted_of_unnamed (h : ∀ e ∈ said, named? e = none) : Rooted said := by
  rintro before e after rfl id hname
  rw [h e (by simp)] at hname
  cases hname

theorem Rooted.append (h : Rooted said) (h' : Rooted later) : Rooted (said ++ later) := by
  intro before e after heq id hname
  rcases exists_split heq with ⟨rest, hsaid, -⟩ | ⟨rest, rfl, hlater⟩
  · exact h before e rest hsaid id hname
  · rw [List.filterMap_append]
    exact List.mem_append_right _ (h' rest e after hlater id hname)

theorem rooted_of_started (hstart : started? e = some id) (hname : named? e = none)
    (h : ∀ x ∈ said, named? x = some id) : Rooted (e :: said) := by
  intro before x after heq id' hx
  cases before with
  | nil =>
    obtain ⟨rfl, -⟩ := List.cons.inj heq
    rw [hname] at hx
    cases hx
  | cons y before =>
    obtain ⟨rfl, hsaid⟩ := List.cons.inj heq
    have hid := h x (by simp [hsaid])
    obtain rfl : id = id' := Option.some.inj (hid.symm.trans hx)
    rw [List.filterMap_cons_some hstart]
    exact List.mem_cons_self

end Rooted

/-- An exchange by which no upload is started, named or completed. -/
structure Aside (e : Exchange World) : Prop where
  unnamed : named? e = none
  event : event? e = none
  transfers : Transfers e

namespace Sink
variable {s : Sink} {parts : List Part} {p : Part} {upload : Upload} {stream : ByteStream}
  {done : List CompletedPart} {said : List (Exchange World)} {e : Exchange World}

/-- Opening a part concerns no upload. -/
private theorem aside_of_opening {opened : Option (Except Error ByteStream)}
    (h : Course p.openStream said opened) (he : e ∈ said) : Aside e := by
  cases Part.reads_of_opening h e he with
  | object client bucket key content answer =>
    exact ⟨rfl, rfl, fun _ _ hquestion => by cases hquestion; trivial⟩
  | file => exact ⟨rfl, rfl, nofun⟩

/-- An exchange about an upload, after it was started. -/
private inductive About (upload : Upload) : Exchange World → Prop where
  | part (c : Client) (part : ObjectStore.PartUpload) (id : part.uploadId = upload.id)
      (answer : Except ObjectStore.Error CompletedPart) :
      About upload (c.exchange (.uploadPart part) answer)
  | incomplete (c : Client) (done : List CompletedPart) (cause : ObjectStore.Error) :
      About upload (c.exchange (.completeUpload upload done) (.error cause))
  | abort (c : Client) (answer : Except ObjectStore.Error Unit) :
      About upload (c.exchange (.abortUpload upload) answer)

private theorem About.named (h : About upload e) : named? e = some upload.id := by
  cases h with
  | part c part id answer => exact congrArg some id
  | incomplete | abort => rfl

private theorem About.started?_eq_none (h : About upload e) : started? e = none := by
  cases h with
  | part c part id answer => cases answer <;> rfl
  | incomplete => rfl
  | abort c answer => cases answer <;> rfl

private theorem About.transfers (h : About upload e) : Transfers e := by
  intro c r hquestion
  cases h <;> cases hquestion <;> trivial

private theorem About.not_complete (h : About upload e) {c : Client} {other : Upload} :
    e ≠ c.exchange (.completeUpload other done) (.ok ()) := by
  cases h <;> nofun

private theorem about_of_uploads {content : Bytes} {first : Nat}
    (he : e ∈ s.uploads upload content first done) : About upload e := by
  obtain ⟨⟨part, number⟩, -, rfl⟩ := List.mem_map.1 he
  exact .part _ _ rfl _

private theorem about_of_stopped {stop : Stop} (h : s.Ending upload stream done said (.error stop))
    (he : e ∈ said) : About upload e := by
  cases h with
  | incomplete cause =>
    obtain rfl := List.mem_singleton.1 he
    exact .incomplete _ _ cause
  | refused cause =>
    obtain rfl := List.mem_singleton.1 he
    exact .part _ _ rfl _
  | unreadable | tooMany => exact absurd he List.not_mem_nil

private theorem about_of_aborted (h : s.Aborted upload said) (he : e ∈ said) : About upload e := by
  cases h with
  | once answer =>
    obtain rfl := List.mem_singleton.1 he
    exact .abort _ answer
  | twice cause denied other set answer =>
    rcases List.mem_cons.1 he with rfl | he
    · exact .abort _ _
    · obtain rfl := List.mem_singleton.1 he
      exact .abort _ answer

/-- The ways a session can go: nothing is started, or an upload is started and either completed with
all chunks, or not completed. -/
private inductive Shape (s : Sink) (stream : ByteStream) (name : String) :
    List (Exchange World) → Except Error Uploaded → Prop where
  | refused (e : Exchange World) (aside : Aside e) (cause : Error) :
      Shape s stream name [e] (.error cause)
  | completed (started : Upload) (done : List CompletedPart) (ends : stream.failure = none)
      (all : done.length = stream.chunks s.chunkSize) (object : Uploaded) :
      Shape s stream name
        (s.client.exchange (.initiateUpload s.bucket (s.keyPrefix ++ name)) (.ok started) ::
          (s.uploads ⟨s.bucket, s.keyPrefix ++ name, started.id⟩ stream.bytes 1 done ++
            [s.client.exchange (.completeUpload ⟨s.bucket, s.keyPrefix ++ name, started.id⟩ done)
              (.ok ())])) (.ok object)
  | stopped (started : Upload) (rest : List (Exchange World))
      (about : ∀ e ∈ rest, About ⟨s.bucket, s.keyPrefix ++ name, started.id⟩ e) (cause : Error) :
      Shape s stream name
        (s.client.exchange (.initiateUpload s.bucket (s.keyPrefix ++ name)) (.ok started) :: rest)
        (.error cause)

private theorem shape_of_session {name : String} {outcome : Except Error Uploaded}
    (h : s.Session stream name said outcome) : s.Shape stream name said outcome := by
  cases h with
  | refused cause => exact .refused _ ⟨rfl, rfl, fun _ _ hquestion => by cases hquestion; trivial⟩ _
  | completed started done last progress ending =>
    cases ending with
    | completed ends all => exact .completed started done ends all _
  | aborted started done last stop abort ending aborted =>
    refine .stopped started _ (fun e he => ?_) _
    rcases List.mem_append.1 he with hfailed | habort
    · rcases List.mem_append.1 hfailed with hsent | hlast
      · exact about_of_uploads hsent
      · exact about_of_stopped ending hlast
    · exact about_of_aborted aborted habort

private theorem Shape.rooted {name : String} {outcome : Except Error Uploaded}
    (h : s.Shape stream name said outcome) : Rooted said := by
  cases h with
  | refused e aside => exact rooted_of_unnamed (by simpa using aside.unnamed)
  | completed started done =>
    refine rooted_of_started rfl rfl fun e he => ?_
    rcases List.mem_append.1 he with hsent | hlast
    · exact (about_of_uploads hsent).named
    · obtain rfl := List.mem_singleton.1 hlast
      rfl
  | stopped started rest about => exact rooted_of_started rfl rfl fun e he => (about e he).named

private theorem Shape.transfers {name : String} {outcome : Except Error Uploaded}
    (h : s.Shape stream name said outcome) : ∀ e ∈ said, Transfers e := by
  have hinitiate : ∀ key answer,
      Transfers (s.client.exchange (.initiateUpload s.bucket key) answer) :=
    fun _ _ _ _ hquestion => by cases hquestion; trivial
  cases h with
  | refused e aside => simpa using aside.transfers
  | completed started done =>
    refine List.forall_mem_cons.2 ⟨hinitiate _ _, List.forall_mem_append.2 ⟨fun e he => ?_, ?_⟩⟩
    · exact (about_of_uploads he).transfers
    · intro e he c r hquestion
      obtain rfl := List.mem_singleton.1 he
      cases hquestion
      trivial
  | stopped started rest about =>
    exact List.forall_mem_cons.2 ⟨hinitiate _ _, fun e he => (about e he).transfers⟩

/-- What is said about a part up to the completion of its upload: it was opened, its upload was
started, and all chunks of its content were sent. -/
structure Delivered (s : Sink) (p : Part) (before : List (Exchange World)) (upload : Upload)
    (done : List CompletedPart) (stream : ByteStream) : Prop where
  place : upload.bucket = s.bucket ∧ upload.key = s.keyPrefix ++ p.name
  ends : stream.failure = none
  all : done.length = stream.chunks s.chunkSize
  sent : ∃ earlier opening started, Course p.openStream opening (some (.ok stream)) ∧
    upload.id = Upload.id started ∧
    before = earlier ++ opening ++
      s.client.exchange (.initiateUpload s.bucket (s.keyPrefix ++ p.name)) (.ok started) ::
        s.uploads upload stream.bytes 1 done

theorem Delivered.after {before : List (Exchange World)}
    (h : s.Delivered p before upload done stream) (earlier : List (Exchange World)) :
    s.Delivered p (earlier ++ before) upload done stream := by
  obtain ⟨hplace, hends, hall, first, opening, started, hopened, hid, rfl⟩ := h
  exact ⟨hplace, hends, hall, earlier ++ first, opening, started, hopened, hid, by simp⟩

private theorem Shape.delivered {outcome : Except Error Uploaded} {opening : List (Exchange World)}
    (h : s.Shape stream p.name said outcome)
    (hopened : Course p.openStream opening (some (.ok stream))) {c : Client} {upload : Upload}
    {before after : List (Exchange World)}
    (heq : said = before ++ c.exchange (.completeUpload upload done) (.ok ()) :: after) :
    s.Delivered p (opening ++ before) upload done stream := by
  have hmem : c.exchange (.completeUpload upload done) (.ok ()) ∈ said := by simp [heq]
  cases h with
  | refused e aside =>
    obtain rfl := List.mem_singleton.1 hmem
    cases aside.event
  | completed started sent ends all object =>
    rw [← List.cons_append] at heq
    rcases exists_split heq with ⟨rest, hfront, -⟩ | ⟨rest, rfl, hlast⟩
    · have hbefore : c.exchange (.completeUpload upload done) (.ok ()) ∈
          before ++ c.exchange (.completeUpload upload done) (.ok ()) :: rest := by simp
      rw [← hfront] at hbefore
      rcases List.mem_cons.1 hbefore with hfirst | hsent
      · cases hfirst
      · exact absurd rfl (about_of_uploads hsent).not_complete
    · cases rest with
      | nil =>
        obtain ⟨hcomplete, rfl⟩ := List.cons.inj hlast
        cases hcomplete
        rw [List.append_nil]
        exact ⟨⟨rfl, rfl⟩, ends, all, [], opening, started, hopened, rfl, rfl⟩
      | cons e rest => exact absurd (congrArg List.length hlast) (by simp)
  | stopped started rest about =>
    rcases List.mem_cons.1 hmem with hfirst | hrest
    · cases hfirst
    · exact absurd rfl (about _ hrest).not_complete

private theorem aside_of_unopened {opened : Option (Except Error ByteStream)}
    (h : Course p.openStream said opened) : Rooted said ∧ ∀ e ∈ said, Transfers e :=
  ⟨rooted_of_unnamed fun _ he => (aside_of_opening h he).unnamed,
    fun _ he => (aside_of_opening h he).transfers⟩

private theorem rooted_of_partCalls {outcome : Except Error Uploaded}
    (h : s.PartCalls p said outcome) : Rooted said ∧ ∀ e ∈ said, Transfers e := by
  cases h with
  | unopened e opening opened => exact aside_of_unopened opened
  | opened stream opening calls opened _ session =>
    have hshape := shape_of_session session
    obtain ⟨hrooted, htransfers⟩ := aside_of_unopened opened
    exact ⟨hrooted.append hshape.rooted, List.forall_mem_append.2 ⟨htransfers, hshape.transfers⟩⟩

/-- A transfer makes only requests of transfers, and names only uploads that it has started. -/
theorem rooted_of_calls {outcome : Except Error Summary} (h : s.Calls parts said outcome) :
    Rooted said ∧ ∀ e ∈ said, Transfers e := by
  induction h with
  | nil => exact ⟨rooted_of_unnamed (by simp), by simp⟩
  | failed p rest said e part => exact rooted_of_partCalls part
  | next p rest said later object outcome part _ ih =>
    obtain ⟨hrooted, htransfers⟩ := rooted_of_partCalls part
    exact ⟨hrooted.append ih.1, List.forall_mem_append.2 ⟨htransfers, ih.2⟩⟩

private theorem delivered_of_partCalls {outcome : Except Error Uploaded}
    (h : s.PartCalls p said outcome) {c : Client} {before after : List (Exchange World)}
    (heq : said = before ++ c.exchange (.completeUpload upload done) (.ok ()) :: after) :
    ∃ stream, s.Delivered p before upload done stream := by
  have hopening : ∀ {opening : List (Exchange World)} {opened : Option (Except Error ByteStream)},
      Course p.openStream opening opened →
        c.exchange (.completeUpload upload done) (.ok ()) ∉ opening := by
    intro opening opened h he
    cases (aside_of_opening h he).event
  cases h with
  | unopened e opening opened => exact absurd (by simp [heq]) (hopening opened)
  | opened stream opening calls opened _ session =>
    rcases exists_split heq with ⟨rest, rfl, -⟩ | ⟨rest, rfl, hcalls⟩
    · exact absurd (by simp) (hopening opened)
    · exact ⟨stream, (shape_of_session session).delivered opened hcalls⟩

/-- An upload that a transfer completes is that of the whole content of one of its parts. -/
theorem delivered_of_calls {outcome : Except Error Summary} (h : s.Calls parts said outcome)
    {c : Client} {before after : List (Exchange World)}
    (heq : said = before ++ c.exchange (.completeUpload upload done) (.ok ()) :: after) :
    ∃ p ∈ parts, ∃ stream, s.Delivered p before upload done stream := by
  induction h generalizing before with
  | nil => exact absurd heq (by simp)
  | failed p rest said e part =>
    exact ⟨p, List.mem_cons_self, delivered_of_partCalls part heq⟩
  | next p rest said later object outcome part _ ih =>
    rcases exists_split heq with ⟨rest, hsaid, -⟩ | ⟨rest, rfl, hlater⟩
    · exact ⟨p, List.mem_cons_self, delivered_of_partCalls part hsaid⟩
    · obtain ⟨q, hq, stream, hdelivered⟩ := ih hlater
      exact ⟨q, List.mem_cons_of_mem p hq, stream, hdelivered.after said⟩

private theorem completed_of_partCalls {object : Uploaded} (h : s.PartCalls p said (.ok object))
    {id : String} (hid : id ∈ said.filterMap started?) :
    ∃ c upload done, Client.exchange c (.completeUpload upload done) (.ok ()) ∈ said ∧
      upload.id = id := by
  obtain ⟨e, he, hstart⟩ := List.mem_filterMap.1 hid
  cases h with
  | opened stream opening calls opened _ session =>
    rcases List.mem_append.1 he with hopening | hcalls
    · rw [started?, (aside_of_opening opened hopening).event] at hstart
      cases hstart
    · cases shape_of_session session with
      | completed started done ends all object =>
        rcases List.mem_cons.1 hcalls with rfl | hrest
        · obtain rfl : started.id = id := Option.some.inj hstart
          exact ⟨s.client, ⟨s.bucket, s.keyPrefix ++ p.name, started.id⟩, done, by simp, rfl⟩
        · rcases List.mem_append.1 hrest with hsent | hlast
          · rw [(about_of_uploads hsent).started?_eq_none] at hstart
            cases hstart
          · obtain rfl := List.mem_singleton.1 hlast
            cases hstart

/-- A transfer that succeeds has completed all uploads that it has started. -/
theorem completed_of_calls {outcome : Except Error Summary} (h : s.Calls parts said outcome)
    (hok : outcome.isOk) {id : String} (hid : id ∈ said.filterMap started?) :
    ∃ c upload done, Client.exchange c (.completeUpload upload done) (.ok ()) ∈ said ∧
      upload.id = id := by
  induction h with
  | nil => cases hid
  | failed => cases hok
  | next p rest said later object outcome part _ ih =>
    rw [List.filterMap_append] at hid
    rcases List.mem_append.1 hid with hsaid | hlater
    · obtain ⟨c, upload, done, hmem, rfl⟩ := completed_of_partCalls part hsaid
      exact ⟨c, upload, done, List.mem_append_left _ hmem, rfl⟩
    · have hrest : outcome.isOk := by cases outcome <;> exact hok
      obtain ⟨c, upload, done, hmem, rfl⟩ := ih hrest hlater
      exact ⟨c, upload, done, List.mem_append_right _ hmem, rfl⟩

end Sink

section Run
variable {ι : Type} [DecidableEq ι] {sinks : ι → Sink} {parts : ι → List Part} {m n : Memory}
  {said : List (ι × Exchange World)} {left : ι → Dialogue World (Except Error Summary)}
  {before after : List (ι × Exchange World)} {i j : ι} {e : Exchange World} {id : String}

/-- What sinks have said and to which store, while they transfer their parts side by side. -/
abbrev SideBySide (sinks : ι → Sink) (parts : ι → List Part) (m : Memory)
    (said : List (ι × Exchange World)) (left : ι → Dialogue World (Except Error Summary))
    (n : Memory) : Prop :=
  Interleaved Serves (fun i => (sinks i).transfer (parts i)) m said left n

namespace SideBySide

/-- What a sink has said is the beginning of the calls of its transfer. -/
private theorem calls (h : SideBySide sinks parts m said left n) (i : ι) :
    ∃ more outcome, (sinks i).Calls (parts i) (saidBy i said ++ more) outcome := by
  obtain ⟨more, result, hcourse⟩ := h.exists_course (fun q => ⟨noAnswer q⟩) i
  obtain ⟨outcome, -, hcalls⟩ := Sink.course_transfer hcourse
  exact ⟨more, outcome, hcalls⟩

private theorem transfers (h : SideBySide sinks parts m said left n) :
    ∀ e ∈ said.map Prod.snd, Transfers e := by
  intro e he
  obtain ⟨⟨i, e⟩, hmem, rfl⟩ := List.mem_map.1 he
  obtain ⟨more, outcome, hcalls⟩ := h.calls i
  exact (Sink.rooted_of_calls hcalls).2 e (List.mem_append_left _ (mem_saidBy.2 hmem))

/-- A sink that names an upload has started it before. -/
private theorem started_of_named (h : SideBySide sinks parts m said left n)
    (heq : said = before ++ (i, e) :: after) (hname : named? e = some id) :
    id ∈ (saidBy i before).filterMap started? := by
  obtain ⟨more, outcome, hcalls⟩ := h.calls i
  refine (Sink.rooted_of_calls hcalls).1 (saidBy i before) e (saidBy i after ++ more) ?_ id hname
  rw [heq, saidBy_append, saidBy_cons_self, List.append_assoc, List.cons_append]

/-- An upload is started once. -/
private theorem not_mem_started (h : SideBySide sinks parts m said left n)
    (heq : said = before ++ (i, e) :: after) (hstart : started? e = some id) :
    id ∉ (before.map Prod.snd).filterMap started? ∧
      id ∉ (after.map Prod.snd).filterMap started? := by
  have hnodup := nodup_started h.leads h.transfers
  rw [heq, List.map_append, List.map_cons, List.filterMap_append,
    List.filterMap_cons_some hstart] at hnodup
  obtain ⟨-, hafter, hapart⟩ := List.nodup_append.1 hnodup
  exact ⟨fun hid => hapart id hid id List.mem_cons_self rfl, (List.nodup_cons.1 hafter).1⟩

/-- An upload that was started is named by nobody else. -/
private theorem eq_of_named (h : SideBySide sinks parts m said left n)
    (heq : said = before ++ (i, e) :: after) (hstart : started? e = some id)
    {x : Exchange World} (hx : (j, x) ∈ after) (hname : named? x = some id) : j = i := by
  obtain ⟨hbefore, hafter⟩ := h.not_mem_started heq hstart
  obtain ⟨first, last, rfl⟩ := List.append_of_mem hx
  have hsplit : said = (before ++ (i, e) :: first) ++ (j, x) :: last := by
    rw [heq, List.append_assoc, List.cons_append]
  obtain ⟨y, hy, hid⟩ := List.mem_filterMap.1 (h.started_of_named hsplit hname)
  rcases List.mem_append.1 (mem_saidBy.1 hy) with hmem | hmem
  · exact absurd (List.mem_filterMap.2 ⟨y, List.mem_map.2 ⟨_, hmem, rfl⟩, hid⟩) hbefore
  · rcases List.mem_cons.1 hmem with heq | hmem
    · exact congrArg Prod.fst heq
    · refine absurd (List.mem_filterMap.2 ⟨y, ?_, hid⟩) hafter
      exact List.mem_map.2 ⟨(j, y), List.mem_append_left _ hmem, rfl⟩

private theorem received_of_uploads {s : Sink} {upload : Upload} {content : Bytes}
    {done : List CompletedPart} (first : Nat) :
    (s.uploads upload content first done).filterMap (received? upload.id) =
      (List.range' first done.length).map fun n => (n, chunk s.chunkSize n content) := by
  induction done generalizing first with
  | nil => rfl
  | cons part done ih =>
    have hpart : received? upload.id (s.client.exchange
        (.uploadPart (s.partUpload upload content first)) (.ok part)) =
          some (first, chunk s.chunkSize first content) := if_pos rfl
    rw [Sink.uploads_cons, List.filterMap_cons_some hpart, ih, List.length_cons, List.range'_succ,
      List.map_cons]

/-- An upload is pending with the chunks that its sink has sent, whatever others do meanwhile. -/
private theorem pending_of_sent (h : SideBySide sinks parts m said left n) {upload started : Upload}
    {content : Bytes} {done : List CompletedPart} {first last : List (ι × Exchange World)}
    {t : Memory} (heq : said = first ++ (i, (sinks i).client.exchange
      (.initiateUpload upload.bucket upload.key) (.ok started)) :: (last ++ after))
    (hid : upload.id = started.id)
    (hlast : saidBy i last = (sinks i).uploads upload content 1 done)
    (ht : Leads Serves m ((first ++ (i, (sinks i).client.exchange
      (.initiateUpload upload.bucket upload.key) (.ok started)) :: last).map Prod.snd) t) :
    done = receipts (sinks i).chunkSize content 1 done.length ∧
      t.uploads.get? upload.id = some ⟨upload.bucket, upload.key,
        (numbered (sinks i).chunkSize content done.length).reverse⟩ := by
  have hstart : started? ((sinks i).client.exchange
      (.initiateUpload upload.bucket upload.key) (.ok started)) = some upload.id :=
    congrArg some hid.symm
  obtain ⟨-, honce⟩ := h.not_mem_started heq hstart
  rw [List.map_append, List.filterMap_append, List.mem_append, not_or] at honce
  have hown : ∀ j x, (j, x) ∈ last → named? x = some upload.id → j = i := fun j x hx =>
    h.eq_of_named heq hstart (List.mem_append_left _ hx)
  have hsent : ∀ x ∈ last.map Prod.snd, Transfers x := by
    intro x hx
    refine h.transfers x ?_
    rw [heq]
    simp only [List.map_append, List.map_cons, List.mem_append, List.mem_cons]
    exact .inr (.inr (.inl hx))
  have hinitiate : Transfers ((sinks i).client.exchange
      (.initiateUpload upload.bucket upload.key) (.ok started)) :=
    fun _ _ hquestion => by cases hquestion; trivial
  rw [List.map_append, List.map_cons] at ht
  obtain ⟨s, -, hs⟩ := leads_append.1 ht
  obtain ⟨mid, hmid, hrest⟩ := leads_cons.1 hs
  have hpending := (hmid.change hinitiate).get?_of_started
  rw [← hid] at hpending
  constructor
  · refine eq_receipts fun part number hmem => ?_
    have hx : (sinks i).client.exchange
        (.uploadPart ((sinks i).partUpload upload content number)) (.ok part) ∈
          (sinks i).uploads upload content 1 done := List.mem_map.2 ⟨(part, number), hmem, rfl⟩
    rw [← hlast, mem_saidBy] at hx
    have hx' := List.mem_map_of_mem (f := Prod.snd) hx
    obtain ⟨l, l', hstep⟩ := hrest.exists_of_mem hx'
    exact (hstep.change (hsent _ hx')).eq_of_received
  · have hreceived : (last.map Prod.snd).filterMap (received? upload.id) =
        numbered (sinks i).chunkSize content done.length := by
      rw [← filterMap_saidBy (i := i), hlast, received_of_uploads]
      · rfl
      · intro j x hx hne
        rw [received?]
        split
        · rename_i part hevent
          refine if_neg fun hpart => hne (hown j x hx ?_)
          rw [ObjectStore.named?_of_received hevent, hpart]
        · rfl
    rw [get?_of_leads hrest hsent hpending honce.1, hreceived, List.append_nil]
    intro x hx hname
    obtain ⟨⟨j, x⟩, hmem, rfl⟩ := List.mem_map.1 hx
    obtain rfl := hown j x hmem hname
    rw [← mem_saidBy, hlast] at hmem
    obtain ⟨⟨part, number⟩, -, rfl⟩ := List.mem_map.1 hmem
    exact ⟨_, _, _, rfl⟩

/-- What is put together by a sink is the content of its part, whatever others do meanwhile. -/
private theorem content_of_delivered (h : SideBySide sinks parts m said left n) {c : Client}
    {upload : Upload} {done : List CompletedPart} {p : Part} {stream : ByteStream} {t : Memory}
    (heq : said = before ++ (i, c.exchange (.completeUpload upload done) (.ok ())) :: after)
    (hdelivered : (sinks i).Delivered p (saidBy i before) upload done stream)
    (ht : Leads Serves m (before.map Prod.snd) t) : t.content upload done = .ok stream.bytes := by
  obtain ⟨⟨hbucket, hkey⟩, hends, hall, earlier, opening, started, -, hid, hsaid⟩ := hdelivered
  rw [← hbucket, ← hkey] at hsaid
  obtain ⟨first, last, rfl, -, hlast⟩ := exists_of_saidBy_eq hsaid
  rw [List.append_assoc, List.cons_append] at heq
  obtain ⟨hdone, hpending⟩ := h.pending_of_sent heq hid hlast ht
  have hsize := (sinks i).chunkSize_pos
  have hend : ¬done.length < stream.chunks (sinks i).chunkSize :=
    Nat.not_lt.2 (Nat.le_of_eq hall.symm)
  rw [lt_chunks_of_ends hsize hends] at hend
  have hcontent := content_of_numbered (by omega) hpending
  rwa [← hdone, List.take_of_length_le (by omega)] at hcontent

/-- No upload is left over by sinks that have all succeeded. -/
private theorem not_pending_of_done (h : SideBySide sinks parts m said left n)
    (hdone : ∀ i, ∃ summary, left i = .done (.ok summary))
    (hid : id ∈ (said.map Prod.snd).filterMap started?) : n.uploads.get? id = none := by
  obtain ⟨e, he, hstart⟩ := List.mem_filterMap.1 hid
  obtain ⟨⟨i, e⟩, hmem, rfl⟩ := List.mem_map.1 he
  obtain ⟨summary, hleft⟩ := hdone i
  obtain ⟨outcome, hresult, hcalls⟩ := Sink.course_transfer (h.course_of_done hleft)
  obtain rfl := Option.some.inj hresult
  have hsaid : id ∈ (saidBy i said).filterMap started? :=
    List.mem_filterMap.2 ⟨e, mem_saidBy.2 hmem, hstart⟩
  obtain ⟨c, upload, done, hcomplete, rfl⟩ := Sink.completed_of_calls hcalls rfl hsaid
  obtain ⟨before, after, heq⟩ := List.append_of_mem (mem_saidBy.1 hcomplete)
  have hlater : upload.id ∉ (after.map Prod.snd).filterMap started? := by
    obtain ⟨y, hy, hyid⟩ := List.mem_filterMap.1 (h.started_of_named heq rfl)
    obtain ⟨first, last, rfl⟩ := List.append_of_mem (mem_saidBy.1 hy)
    rw [List.append_assoc, List.cons_append] at heq
    have honce := (h.not_mem_started heq hyid).2
    rw [List.map_append, List.filterMap_append, List.map_cons,
      List.filterMap_cons_none rfl] at honce
    exact fun hafter => honce (List.mem_append_right _ hafter)
  have htransfers := h.transfers
  have hleads := h.leads
  rw [heq, List.map_append, List.map_cons] at hleads htransfers
  obtain ⟨s, -, hs⟩ := leads_append.1 hleads
  obtain ⟨mid, hmid, hrest⟩ := leads_cons.1 hs
  obtain ⟨hthis, hothers⟩ := List.forall_mem_cons.1 (List.forall_mem_append.1 htransfers).2
  exact get?_eq_none_of_leads hrest hothers hlater
    (hmid.change hthis).get?_of_completed

end SideBySide

/-- Sinks that transfer their parts side by side do not mix what they upload. Each upload gets a
name of its own, which no upload has had before; under a key there is what was there at first, or
the whole content of the part whose upload was the last one to be completed for this key; and once
all sinks have succeeded, no upload that they have started is pending. -/
theorem kept_apart_of_sideBySide (hm : m.Reachable) (h : SideBySide sinks parts m said left n) :
    ((said.map Prod.snd).filterMap started?).Nodup ∧
    (∀ id ∈ (said.map Prod.snd).filterMap started?,
      m.uploads.get? id = none ∧ ∃ number, m.started < number ∧ id = uploadId number) ∧
    (∀ bucket key,
      ((∀ x ∈ said, ¬Completes bucket key x.2) ∧
        n.object? bucket key = m.object? bucket key) ∨
      ∃ before i c upload done after,
        said = before ++ (i, Client.exchange c (.completeUpload upload done) (.ok ())) :: after ∧
        upload.bucket = bucket ∧ upload.key = key ∧ (∀ x ∈ after, ¬Completes bucket key x.2) ∧
        ∃ p ∈ parts i, ∃ stream, (sinks i).Delivered p (saidBy i before) upload done stream ∧
          n.object? bucket key = some stream.bytes) ∧
    ((∀ i, ∃ summary, left i = .done (.ok summary)) →
      ∀ id ∈ (said.map Prod.snd).filterMap started?, n.uploads.get? id = none) := by
  refine ⟨nodup_started h.leads h.transfers, fun id hid => ?_, fun bucket key => ?_,
    fun hdone id hid => h.not_pending_of_done hdone hid⟩
  · obtain ⟨count, hnames, -⟩ := started_of_leads h.leads h.transfers
    rw [hnames] at hid
    obtain ⟨number, hnumber, rfl⟩ := List.mem_map.1 hid
    have hnew : m.started < number := (List.mem_range'_1.1 hnumber).1
    exact ⟨hm.numbered number hnew, number, hnew, rfl⟩
  · rcases object?_of_leads h.leads h.transfers bucket key with ⟨hnone, hheld⟩ |
      ⟨before, c, upload, done, after, t, body, hsaid, hbucket, hkey, hafter, ht, hcontent, hbody⟩
    · exact .inl ⟨fun x hx => hnone x.2 (List.mem_map_of_mem hx), hheld⟩
    · obtain ⟨first, rest, rfl, rfl, hrest⟩ := List.map_eq_append_iff.1 hsaid
      obtain ⟨⟨i, e⟩, last, rfl, rfl, rfl⟩ := List.map_eq_cons_iff.1 hrest
      obtain ⟨more, outcome, hcalls⟩ := h.calls i
      rw [saidBy_append, saidBy_cons_self, List.append_assoc, List.cons_append] at hcalls
      obtain ⟨p, hp, stream, hdelivered⟩ := Sink.delivered_of_calls hcalls rfl
      have hstream := h.content_of_delivered rfl hdelivered ht
      obtain rfl : body = stream.bytes := Except.ok.inj (hcontent.symm.trans hstream)
      exact .inr ⟨first, i, c, upload, done, last, rfl, hbucket, hkey,
        fun x hx => hafter x.2 (List.mem_map_of_mem hx), p, hp, stream, hdelivered, hbody⟩

end Run

/-- A store that answers requests, and nobody who answers anything else. -/
private def served (m : Memory) (q : World.Question) : q.Answer × Memory :=
  match q with
  | .request _ r => m.answer r
  | q => (noAnswer q, m)

private def succeeded : Dialogue World (Except Error Summary) → Bool
  | .done (.ok _) => true
  | _ => false

/-- Two sinks upload to one key; the one with less to send completes last. -/
theorem kept_apart_of_equal_keys :
    let s : Sink := .ofChunks ⟨2, "memory://obs"⟩ "b" "p/" 2
    let m := (Memory.withPages "memory://obs" 1).seed "b" [("p/x", [0])]
    let parts : Bool → List Part := fun i => [.ofBytes "x" (if i then [1, 2, 3] else [4])]
    ∃ said left n, SideBySide (fun _ => s) parts m said left n ∧
      ((said.map Prod.snd).filterMap started?).Nodup ∧ n.object? "b" "p/x" = some [4] ∧
      ∀ id ∈ (said.map Prod.snd).filterMap started?, n.uploads.get? id = none := by
  intro s m parts
  have hstep : ∀ m q, Serves m ⟨q, (served m q).1⟩ (served m q).2 := by
    intro m q
    refine .inl ⟨m.faults, ?_⟩
    cases q <;> rfl
  have h : SideBySide (fun _ => s) parts m _ _ _ :=
    interleaved_takeTurns hstep [true, false, true, false, true, true, false] _ m
  have hheld : (takeTurns served [true, false, true, false, true, true, false]
      (fun i => s.transfer (parts i)) m).2.2.object? "b" "p/x" = some [4] := by decide +kernel
  have hended : ∀ i, succeeded ((takeTurns served [true, false, true, false, true, true, false]
      (fun i => s.transfer (parts i)) m).2.1 i) = true := by decide +kernel
  generalize takeTurns served [true, false, true, false, true, true, false]
    (fun i => s.transfer (parts i)) m = last at h hheld hended
  obtain ⟨said, left, n⟩ := last
  have hdone : ∀ i, ∃ summary, left i = .done (.ok summary) := by
    intro i
    have hi : succeeded (left i) = true := hended i
    rcases hleft : left i with (e | summary) | ⟨q, next⟩ | _ <;> rw [hleft] at hi
    · cases hi
    · exact ⟨summary, rfl⟩
    · cases hi
    · cases hi
  obtain ⟨hnodup, -, -, hpending⟩ := kept_apart_of_sideBySide (.seeded _ _ (.new _ _)) h
  exact ⟨said, left, n, h, hnodup, hheld, hpending hdone⟩

end BucketTransfer.Transfer
