import BucketTransfer.Proofs.ObjectStore.Assembly
import BucketTransfer.Proofs.ObjectStore.Exchanges
import BucketTransfer.Proofs.ObjectStore.Reachable

/-!
# Uploads at a store

What becomes of uploads while requests for them come in any order, and any of them may fail. Each
upload gets a name that no other one has had, is pending with exactly the parts that were received
under this name, and puts an object into its bucket only when it is completed.
-/
namespace BucketTransfer.ObjectStore

/-- The upload that a request names. -/
def Request.upload? : Request → Option String
  | .uploadPart part => some part.uploadId
  | .completeUpload upload _ => some upload.id
  | .abortUpload upload => some upload.id
  | _ => none

/-- The requests that transfers make. -/
def Request.IsTransfer : Request → Prop
  | .initiateUpload .. | .uploadPart _ | .completeUpload .. | .abortUpload _ | .getObject .. => True
  | _ => False

/-- What a store has done for an upload. -/
inductive Event where
  | started (upload : Upload)
  | received (part : PartUpload)
  | completed (upload : Upload)
  | aborted (upload : Upload)

/-- What a store has done for an upload if this is its answer. -/
def Request.event? : (r : Request) → Except Error r.Reply → Option Event
  | .initiateUpload .., .ok upload => some (.started upload)
  | .uploadPart part, .ok _ => some (.received part)
  | .completeUpload upload _, .ok _ => some (.completed upload)
  | .abortUpload upload, .ok _ => some (.aborted upload)
  | _, _ => none

/-- What was done for an upload in an exchange. -/
def event? : Exchange World → Option Event
  | ⟨.request _ r, answer⟩ => r.event? answer
  | _ => none

/-- The upload that is named in an exchange. -/
def named? : Exchange World → Option String
  | ⟨.request _ r, _⟩ => r.upload?
  | _ => none

/-- A part that is received is named with its upload. -/
theorem named?_of_received {e : Exchange World} {part : PartUpload}
    (h : event? e = some (.received part)) : named? e = some part.uploadId := by
  obtain ⟨q, answer⟩ := e
  cases q with
  | request c r =>
    cases r with
    | uploadPart sent =>
      cases answer with
      | error cause => cases h
      | ok done =>
        cases h
        rfl
    | _ => cases answer <;> cases h
  | _ => cases h

/-- The name of the upload that was started in an exchange. -/
def started? (e : Exchange World) : Option String :=
  match event? e with
  | some (.started upload) => some upload.id
  | _ => none

/-- The part of an upload that was received in an exchange. -/
def received? (id : String) (e : Exchange World) : Option (Nat × Bytes) :=
  match event? e with
  | some (.received part) => if part.uploadId = id then some (part.number, part.body) else none
  | _ => none

/-- Whether an object was put under a key by the completion of an upload. -/
def Completes (bucket key : String) (e : Exchange World) : Prop :=
  ∃ upload, event? e = some (.completed upload) ∧ upload.bucket = bucket ∧ upload.key = key

/-- Whether a request in an exchange is one that transfers make. -/
def Transfers (e : Exchange World) : Prop := ∀ c r, e.question = .request c r → r.IsTransfer

namespace Memory

/-- What an exchange does to a store that may have any faults at the time. Objects may be fetched
from elsewhere. -/
def Serves (m : Memory) (e : Exchange World) (n : Memory) : Prop :=
  (∃ faults, ({ m with faults } : Memory).Step e n) ∨
    (∀ c r, e.question = .request c r → ∃ bucket key, r = .getObject bucket key) ∧ n = m

/-- The ways an exchange of a transfer can change a store. -/
inductive Change (m : Memory) (e : Exchange World) (n : Memory) : Prop where
  | started (c : Client) (bucket key : String)
      (eq : e = c.exchange (.initiateUpload bucket key)
        (.ok ⟨bucket, key, uploadId (m.started + 1)⟩))
      (buckets : n.buckets = m.buckets) (started : n.started = m.started + 1)
      (uploads : n.uploads = m.uploads.insert (uploadId (m.started + 1)) { bucket, key })
  | received (c : Client) (part : PartUpload) (pending : Pending)
      (eq : e = c.exchange (.uploadPart part) (.ok ⟨part.number, etagOf part.body⟩))
      (there : m.uploads.get? part.uploadId = some pending)
      (buckets : n.buckets = m.buckets) (started : n.started = m.started)
      (uploads : n.uploads = m.uploads.insert part.uploadId
        { pending with parts := (part.number, part.body) :: pending.parts })
  | completed (c : Client) (upload : Upload) (parts : List CompletedPart) (body : Bytes)
      (objects : KeyMap Bytes) (eq : e = c.exchange (.completeUpload upload parts) (.ok ()))
      (content : m.content upload parts = .ok body)
      (held : m.buckets.get? upload.bucket = some objects)
      (buckets : n.buckets = m.buckets.insert upload.bucket (objects.insert upload.key body))
      (started : n.started = m.started) (uploads : n.uploads = m.uploads.erase upload.id)
  | aborted (c : Client) (upload : Upload) (eq : e = c.exchange (.abortUpload upload) (.ok ()))
      (buckets : n.buckets = m.buckets) (started : n.started = m.started)
      (uploads : n.uploads = m.uploads.erase upload.id)
  /-- An upload is put together whose bucket is gone. -/
  | lost (c : Client) (upload : Upload) (parts : List CompletedPart) (cause : Error)
      (eq : e = c.exchange (.completeUpload upload parts) (.error cause))
      (buckets : n.buckets = m.buckets) (started : n.started = m.started)
      (uploads : n.uploads = m.uploads.erase upload.id)
  | idle (quiet : event? e = none) (alike : m.Alike n)

variable {m n l : Memory} {c : Client} {r : Request} {e : Exchange World} {id : String}
  {said : List (Exchange World)}

/-- An upload that cannot be completed stays as it is, or is gone if its bucket is. -/
private theorem complete_error {upload : Upload} {parts : List CompletedPart} {cause : Error}
    (h : m.answer (.completeUpload upload parts) = (.error cause, n)) :
    m.Alike n ∨ n.buckets = m.buckets ∧ n.started = m.started ∧
      n.uploads = m.uploads.erase upload.id := by
  obtain ⟨l, halike, -, ⟨e, heq⟩ | heq⟩ := m.answer_cases (.completeUpload upload parts)
  · obtain rfl : l = n := congrArg Prod.snd (heq.symm.trans h)
    exact .inl halike
  · have heffect := heq.symm.trans h
    simp only [effect] at heffect
    split at heffect
    · obtain rfl := congrArg Prod.snd heffect
      exact .inl halike
    · split at heffect
      · obtain rfl := congrArg Prod.snd heffect
        exact .inr ⟨halike.buckets, halike.started, by rw [← halike.uploads]⟩
      · exact absurd (congrArg Prod.fst heffect) (by simp)

private theorem change_of_answer {answer : Except Error r.Reply} (hm : m.Alike l)
    (hr : r.IsTransfer) (h : l.answer r = (answer, n)) : m.Change (c.exchange r answer) n := by
  have hidle : ∀ cause, answer = .error cause →
      (∀ upload parts, r ≠ .completeUpload upload parts) → m.Change (c.exchange r answer) n := by
    rintro cause rfl hne
    refine .idle ?_ (hm.trans (alike_of_answer_error_of_ne h hne))
    cases r <;> rfl
  cases r with
  | initiateUpload bucket key =>
    cases answer with
    | error cause => exact hidle cause rfl (by simp)
    | ok upload =>
      obtain ⟨rfl, -, hbuckets, hstarted, huploads⟩ := initiate_ok h
      rw [hm.buckets] at hbuckets
      rw [hm.started] at hstarted huploads ⊢
      rw [hm.uploads] at huploads
      exact .started c bucket key rfl hbuckets hstarted huploads
  | uploadPart part =>
    cases answer with
    | error cause => exact hidle cause rfl (by simp)
    | ok done =>
      obtain ⟨pending, hthere, rfl, hbuckets, hstarted, huploads⟩ := uploadPart_ok h
      rw [hm.uploads] at hthere huploads
      exact .received c part pending rfl hthere (hbuckets.trans hm.buckets)
        (hstarted.trans hm.started) huploads
  | completeUpload upload parts =>
    cases answer with
    | error cause =>
      rcases complete_error h with halike | ⟨hbuckets, hstarted, huploads⟩
      · exact .idle rfl (hm.trans halike)
      · rw [hm.uploads] at huploads
        exact .lost c upload parts cause rfl (hbuckets.trans hm.buckets)
          (hstarted.trans hm.started) huploads
    | ok value =>
      obtain ⟨body, objects, hcontent, hheld, hbuckets, hstarted, huploads⟩ := complete_ok h
      rw [content_congr hm] at hcontent
      rw [hm.buckets] at hheld hbuckets
      rw [hm.uploads] at huploads
      exact .completed c upload parts body objects rfl hcontent hheld hbuckets
        (hstarted.trans hm.started) huploads
  | abortUpload upload =>
    cases answer with
    | error cause => exact hidle cause rfl (by simp)
    | ok value =>
      obtain ⟨hbuckets, hstarted, huploads⟩ := abort_ok h
      rw [hm.uploads] at huploads
      exact .aborted c upload rfl (hbuckets.trans hm.buckets) (hstarted.trans hm.started) huploads
  | getObject bucket key =>
    have halike := alike_answer_getObject l bucket key
    rw [h] at halike
    exact .idle rfl (hm.trans halike)
  | _ => exact hr.elim

/-- An exchange of a transfer changes a store in one of these ways, whatever faults there are. -/
theorem Serves.change (h : m.Serves e n) (he : Transfers e) : m.Change e n := by
  obtain ⟨q, answer⟩ := e
  rcases h with ⟨faults, hstep⟩ | ⟨hfetch, rfl⟩
  · have halike : m.Alike { m with faults } := ⟨rfl, rfl, rfl, rfl⟩
    cases q with
    | request c r => exact change_of_answer (c := c) halike (he c r rfl) hstep
    | _ =>
      obtain rfl : n = { m with faults } := hstep
      exact .idle rfl halike
  · refine .idle ?_ (.refl _)
    cases q with
    | request c r =>
      obtain ⟨bucket, key, rfl⟩ := hfetch c r rfl
      rfl
    | _ => rfl

/-- An upload is started under the next number, and no other exchange counts. -/
private theorem Change.numbers (h : m.Change e n) :
    (started? e = some (uploadId (m.started + 1)) ∧ n.started = m.started + 1) ∨
      (started? e = none ∧ n.started = m.started) := by
  cases h with
  | started c bucket key eq _ hstarted =>
    subst eq
    exact .inl ⟨rfl, hstarted⟩
  | received c part pending eq _ _ hstarted =>
    subst eq
    exact .inr ⟨rfl, hstarted⟩
  | completed c upload parts body objects eq _ _ _ hstarted =>
    subst eq
    exact .inr ⟨rfl, hstarted⟩
  | aborted c upload eq _ hstarted =>
    subst eq
    exact .inr ⟨rfl, hstarted⟩
  | lost c upload parts cause eq _ hstarted =>
    subst eq
    exact .inr ⟨rfl, hstarted⟩
  | idle quiet alike =>
    refine .inr ⟨?_, alike.started⟩
    rw [started?, quiet]

theorem Change.get?_of_started {bucket key : String} {upload : Upload}
    (h : m.Change (c.exchange (.initiateUpload bucket key) (.ok upload)) n) :
    n.uploads.get? upload.id = some ⟨bucket, key, []⟩ := by
  cases h with
  | started c bucket key eq _ _ huploads =>
    cases eq
    rw [huploads, KeyMap.get?_insert_self]
  | received _ _ _ eq => cases eq
  | completed _ _ _ _ _ eq => cases eq
  | aborted _ _ eq => cases eq
  | lost _ _ _ _ eq => cases eq
  | idle quiet => cases quiet

theorem Change.eq_of_received {part : PartUpload} {done : CompletedPart}
    (h : m.Change (c.exchange (.uploadPart part) (.ok done)) n) :
    done = ⟨part.number, etagOf part.body⟩ := by
  cases h with
  | started _ _ _ eq => cases eq
  | received c part pending eq =>
    cases eq
    rfl
  | completed _ _ _ _ _ eq => cases eq
  | aborted _ _ eq => cases eq
  | lost _ _ _ _ eq => cases eq
  | idle quiet => cases quiet

theorem Change.get?_of_completed {upload : Upload} {parts : List CompletedPart}
    (h : m.Change (c.exchange (.completeUpload upload parts) (.ok ())) n) :
    n.uploads.get? upload.id = none := by
  cases h with
  | started _ _ _ eq => cases eq
  | received _ _ _ eq => cases eq
  | completed c upload parts body objects eq _ _ _ _ huploads =>
    cases eq
    rw [huploads, KeyMap.get?_erase, if_pos rfl]
  | aborted _ _ eq => cases eq
  | lost _ _ _ _ eq => cases eq
  | idle quiet => cases quiet

/-- Uploads get the names of consecutive numbers, from the first that was not used. -/
theorem started_of_leads (h : Leads Serves m said n) (hsaid : ∀ e ∈ said, Transfers e) :
    ∃ count, said.filterMap started? = (List.range' (m.started + 1) count).map uploadId ∧
      n.started = m.started + count := by
  induction h with
  | nil m => exact ⟨0, rfl, rfl⟩
  | cons first rest ih =>
    obtain ⟨hfirst, hrest⟩ := List.forall_mem_cons.1 hsaid
    obtain ⟨count, hnames, hcount⟩ := ih hrest
    rcases (first.change hfirst).numbers with ⟨hname, hnumber⟩ | ⟨hname, hnumber⟩
    · refine ⟨count + 1, ?_, by omega⟩
      rw [List.filterMap_cons_some hname, hnames, hnumber]
      rfl
    · exact ⟨count, by rw [List.filterMap_cons_none hname, hnames, hnumber], by omega⟩

/-- No two uploads get the same name. -/
theorem nodup_started (h : Leads Serves m said n) (hsaid : ∀ e ∈ said, Transfers e) :
    (said.filterMap started?).Nodup := by
  obtain ⟨count, hnames, -⟩ := started_of_leads h hsaid
  rw [hnames]
  have hnumbers : (List.range' (m.started + 1) count).Pairwise (· < ·) := List.pairwise_lt_range'
  refine List.pairwise_map.2 (hnumbers.imp fun hlt heq => ?_)
  exact Nat.ne_of_lt hlt (uploadId_inj heq)

/-- An upload that is not started is as before if it is not named. -/
private theorem Change.get?_of_ne (h : m.Change e n) (hstart : started? e ≠ some id)
    (hname : named? e ≠ some id) : n.uploads.get? id = m.uploads.get? id := by
  cases h with
  | started c bucket key eq _ _ huploads =>
    subst eq
    have hne : id ≠ uploadId (m.started + 1) := fun heq => hstart (congrArg some heq.symm)
    rw [huploads, KeyMap.get?_insert_of_ne hne]
  | received c part pending eq _ _ _ huploads =>
    subst eq
    have hne : id ≠ part.uploadId := fun heq => hname (congrArg some heq.symm)
    rw [huploads, KeyMap.get?_insert_of_ne hne]
  | completed c upload parts body objects eq _ _ _ _ huploads =>
    subst eq
    have hne : id ≠ upload.id := fun heq => hname (congrArg some heq.symm)
    rw [huploads, KeyMap.get?_erase, if_neg hne]
  | aborted c upload eq _ _ huploads =>
    subst eq
    have hne : id ≠ upload.id := fun heq => hname (congrArg some heq.symm)
    rw [huploads, KeyMap.get?_erase, if_neg hne]
  | lost c upload parts cause eq _ _ huploads =>
    subst eq
    have hne : id ≠ upload.id := fun heq => hname (congrArg some heq.symm)
    rw [huploads, KeyMap.get?_erase, if_neg hne]
  | idle quiet alike => rw [alike.uploads]

/-- An upload that is gone does not come back unless it is started. -/
private theorem Change.get?_eq_none (h : m.Change e n) (hstart : started? e ≠ some id)
    (hm : m.uploads.get? id = none) : n.uploads.get? id = none := by
  by_cases hname : named? e = some id
  · cases h with
    | started c bucket key eq =>
      subst eq
      cases hname
    | received c part pending eq hthere =>
      subst eq
      obtain rfl : part.uploadId = id := Option.some.inj hname
      rw [hm] at hthere
      cases hthere
    | completed c upload parts body objects eq _ _ _ _ huploads =>
      rw [huploads, KeyMap.get?_erase, hm, ite_self]
    | aborted c upload eq _ _ huploads => rw [huploads, KeyMap.get?_erase, hm, ite_self]
    | lost c upload parts cause eq _ _ huploads =>
      rw [huploads, KeyMap.get?_erase, hm, ite_self]
    | idle quiet alike => rw [alike.uploads, hm]
  · rw [h.get?_of_ne hstart hname, hm]

theorem get?_eq_none_of_leads (h : Leads Serves m said n) (hsaid : ∀ e ∈ said, Transfers e)
    (hstart : id ∉ said.filterMap started?) (hm : m.uploads.get? id = none) :
    n.uploads.get? id = none := by
  apply h.invariant (P := fun m => m.uploads.get? id = none) hm
  intro e he s t hs hstep
  refine (hstep.change (hsaid e he)).get?_eq_none (fun heq => hstart ?_) hs
  exact List.mem_filterMap.2 ⟨e, he, heq⟩

/-- A part that is received joins those of its upload. -/
private theorem Change.get?_of_received {pending : Pending} (h : m.Change e n)
    (hm : m.uploads.get? id = some pending) (hstart : started? e ≠ some id)
    (hname : named? e = some id →
      ∃ c part answer, e = Client.exchange c (.uploadPart part) answer) :
    n.uploads.get? id =
      some { pending with parts := (received? id e).toList ++ pending.parts } := by
  by_cases hid : named? e = some id
  · obtain ⟨c, part, answer, rfl⟩ := hname hid
    obtain rfl : part.uploadId = id := Option.some.inj hid
    cases h with
    | started c bucket key eq => cases eq
    | received c part' found eq hthere _ _ huploads =>
      cases eq
      obtain rfl := Option.some.inj (hthere.symm.trans hm)
      rw [huploads, KeyMap.get?_insert_self]
      simp [received?, event?, Client.exchange, Request.event?]
    | completed c upload parts body objects eq => cases eq
    | aborted c upload eq => cases eq
    | lost c upload parts cause eq => cases eq
    | idle quiet alike =>
      rw [alike.uploads, hm, received?, quiet]
      rfl
  · have hnone : received? id e = none := by
      rw [received?]
      split
      · rename_i part hevent
        refine if_neg fun heq => hid ?_
        rw [named?_of_received hevent, heq]
      · rfl
    rw [h.get?_of_ne hstart hid, hm, hnone]
    rfl

/-- An upload is pending with the parts that were received for it since it was started. -/
theorem get?_of_leads {bucket key : String} {parts : List (Nat × Bytes)}
    (h : Leads Serves m said n) (hsaid : ∀ e ∈ said, Transfers e)
    (hm : m.uploads.get? id = some ⟨bucket, key, parts⟩)
    (hstart : id ∉ said.filterMap started?)
    (hname : ∀ e ∈ said, named? e = some id →
      ∃ c part answer, e = Client.exchange c (.uploadPart part) answer) :
    n.uploads.get? id =
      some ⟨bucket, key, (said.filterMap (received? id)).reverse ++ parts⟩ := by
  induction h generalizing parts with
  | nil m => simpa using hm
  | @cons s mid last e said first rest ih =>
    obtain ⟨hfirst, hrest⟩ := List.forall_mem_cons.1 hsaid
    obtain ⟨hown, hothers⟩ := List.forall_mem_cons.1 hname
    have hne : started? e ≠ some id := fun heq =>
      hstart (List.mem_filterMap.2 ⟨e, List.mem_cons_self, heq⟩)
    have hlater : id ∉ said.filterMap started? := by
      intro hmem
      obtain ⟨x, hx, hxid⟩ := List.mem_filterMap.1 hmem
      exact hstart (List.mem_filterMap.2 ⟨x, List.mem_cons_of_mem e hx, hxid⟩)
    have hmid := (first.change hfirst).get?_of_received hm hne hown
    rw [ih hrest hmid hlater hothers]
    cases hreceived : received? id e with
    | none => rw [List.filterMap_cons_none hreceived]; rfl
    | some part =>
      rw [List.filterMap_cons_some hreceived]
      simp

/-- Only the completion of an upload changes what is held. -/
private theorem Change.object? (h : m.Change e n) (bucket key : String) :
    (∃ c upload parts body, e = Client.exchange c (.completeUpload upload parts) (.ok ()) ∧
      m.content upload parts = .ok body ∧ n.object? bucket key =
        if bucket = upload.bucket ∧ key = upload.key then some body else m.object? bucket key) ∨
      (∀ upload, event? e ≠ some (.completed upload)) ∧
        n.object? bucket key = m.object? bucket key := by
  have hkept : n.buckets = m.buckets → n.object? bucket key = m.object? bucket key := by
    intro hbuckets
    rw [Memory.object?, hbuckets, Memory.object?]
  cases h with
  | started c b k eq hbuckets =>
    subst eq
    exact .inr ⟨by rintro _ ⟨⟩, hkept hbuckets⟩
  | received c part pending eq _ hbuckets =>
    subst eq
    exact .inr ⟨by rintro _ ⟨⟩, hkept hbuckets⟩
  | completed c upload parts body objects eq hcontent hheld hbuckets =>
    exact .inl ⟨c, upload, parts, body, eq, hcontent, object?_of_insert hheld hbuckets bucket key⟩
  | aborted c upload eq hbuckets =>
    subst eq
    exact .inr ⟨by rintro _ ⟨⟩, hkept hbuckets⟩
  | lost c upload parts cause eq hbuckets =>
    subst eq
    exact .inr ⟨by rintro _ ⟨⟩, hkept hbuckets⟩
  | idle quiet alike => exact .inr ⟨by simp [quiet], hkept alike.buckets⟩

/-- What is held under a key is what was held at first, or the content of the upload that was the
last one to be completed for it. -/
theorem object?_of_leads (h : Leads Serves m said n) (hsaid : ∀ e ∈ said, Transfers e)
    (bucket key : String) :
    ((∀ e ∈ said, ¬Completes bucket key e) ∧ n.object? bucket key = m.object? bucket key) ∨
      ∃ before c upload parts after t body,
        said = before ++ Client.exchange c (.completeUpload upload parts) (.ok ()) :: after ∧
        upload.bucket = bucket ∧ upload.key = key ∧ (∀ e ∈ after, ¬Completes bucket key e) ∧
        Leads Serves m before t ∧ t.content upload parts = .ok body ∧
        n.object? bucket key = some body := by
  induction h with
  | nil m => exact .inl ⟨by simp, rfl⟩
  | @cons m mid last e said first rest ih =>
    obtain ⟨hfirst, hrest⟩ := List.forall_mem_cons.1 hsaid
    rcases ih hrest with ⟨hnone, hheld⟩ |
      ⟨before, c, upload, parts, after, t, body, rfl, hbucket, hkey, hafter, ht, hcontent, hbody⟩
    · rcases (first.change hfirst).object? bucket key with
        ⟨c, upload, parts, body, rfl, hcontent, hput⟩ | ⟨hquiet, hkept⟩
      · by_cases hplace : bucket = upload.bucket ∧ key = upload.key
        · rw [if_pos hplace] at hput
          exact .inr ⟨[], c, upload, parts, said, m, body, rfl, hplace.1.symm, hplace.2.symm,
            hnone, .nil m, hcontent, hheld.trans hput⟩
        · rw [if_neg hplace] at hput
          refine .inl ⟨List.forall_mem_cons.2 ⟨?_, hnone⟩, hheld.trans hput⟩
          rintro ⟨_, ⟨⟩, rfl, rfl⟩
          exact hplace ⟨rfl, rfl⟩
      · refine .inl ⟨List.forall_mem_cons.2 ⟨?_, hnone⟩, hheld.trans hkept⟩
        rintro ⟨upload, hcompleted, -⟩
        exact hquiet upload hcompleted
    · exact .inr ⟨e :: before, c, upload, parts, after, t, body, rfl, hbucket, hkey, hafter,
        .cons first ht, hcontent, hbody⟩

end Memory

end BucketTransfer.ObjectStore
