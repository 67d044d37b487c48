import BucketTransfer.Proofs.Dialogue.Rehearsal
import BucketTransfer.Proofs.Dialogue.Task
import BucketTransfer.Proofs.ObjectStore.Memory
import BucketTransfer.Services.Scripted

/-!
# Clients of the first store

How the first store sees what is asked in a rehearsal: a question is one call to it, or none. What a
client on a restricted route may not do does not reach the store.
-/
namespace BucketTransfer.Services.Scripted
open ObjectStore (Memory Operation)
open Rehearsal (play Answers)

variable {s : Scripted} {w mid last : Rehearsal Scripted} {c : Client} {r : ObjectStore.Request}

/-- The first store of a rehearsal. -/
def store (w : Rehearsal Scripted) : Memory := w.services.storeAt 0

/-- A client of the first store that may do all. -/
def Full (c : Client) : Prop := c.number = (Route.store 0).number

/-- A client of the first store that may do some things only. -/
def Partial (c : Client) : Prop := c.number = Route.restricted.number

theorem storeAt_withStore (h : s.stores ≠ []) (m : Memory) : (s.withStore 0 m).storeAt 0 = m := by
  cases hstores : s.stores with
  | nil => exact absurd hstores h
  | cons first others => simp [storeAt, withStore, hstores]

theorem withStore_ne_nil (h : s.stores ≠ []) (n : Nat) (m : Memory) :
    (s.withStore n m).stores ≠ [] := by
  simpa [withStore] using h

theorem play_request (w : Rehearsal Scripted) (c : Client) (r : ObjectStore.Request) :
    play (.question (I := World) (.request c r)) w =
      (some (w.services.request c r).1, { w with services := (w.services.request c r).2 }) := rfl

/-- A client of the first store may do an operation there. -/
def Permits (s : Scripted) (c : Client) (operation : Operation) : Prop :=
  Full c ∨ Partial c ∧ operation ∈ s.restricted.allowed

theorem request_of_permits (h : s.Permits c r.operation) : s.request c r = s.atStore 0 r := by
  rcases h with hfull | ⟨hpartial, hallowed⟩
  · simp only [request, show c.number = _ from hfull, Route.ofNumber_number]
  · simp only [request, show c.number = _ from hpartial, Route.ofNumber_number,
      ObjectStore.Restricted.answer, if_pos hallowed]
    rfl

/-- What is not allowed is refused, and the stores do not learn of it. -/
theorem request_of_refused (hc : Partial c) (h : r.operation ∉ s.restricted.allowed) :
    ∃ e t, s.request c r = (.error e, t) ∧ e.reason = .accessDenied ∧ t.stores = s.stores ∧
      t.restricted.allowed = s.restricted.allowed := by
  simp only [request, show c.number = _ from hc, Route.ofNumber_number,
    ObjectStore.Restricted.answer, if_neg h]
  refine ⟨_, _, rfl, rfl, ?_, rfl⟩
  cases hstores : s.stores <;> simp [withStore, storeAt, hstores]

/-- What an answer does to a first store: it is given by the store, or does not reach it. -/
structure Steps (r : Option ObjectStore.Request) (s t : Scripted) : Prop where
  stores_ne_nil : t.stores ≠ []
  allowed_eq : t.restricted.allowed = s.restricted.allowed
  store_eq : t.storeAt 0 = s.storeAt 0 ∨ ∃ q, r = some q ∧ t.storeAt 0 = ((s.storeAt 0).answer q).2

private theorem steps_atStore (h : s.stores ≠ []) (n : Nat) (r : ObjectStore.Request) :
    Steps (some r) s (s.atStore n r).2 := by
  refine ⟨withStore_ne_nil h n _, rfl, ?_⟩
  cases n with
  | zero => exact .inr ⟨r, rfl, storeAt_withStore h _⟩
  | succ n =>
    refine .inl ?_
    simp [atStore, withStore, storeAt]

private theorem steps_atScript (h : s.stores ≠ []) (r : ObjectStore.Request) :
    Steps (some r) s (s.atScript r).2 := by
  cases r with
  | listObjects bucket keyPrefix marker =>
    simp only [atScript]
    split
    · exact steps_atStore h 0 _
    · exact ⟨h, rfl, .inl rfl⟩
  | deleteObjects bucket keys =>
    simp only [atScript]
    split
    · exact steps_atStore h 0 _
    · exact ⟨h, rfl, .inl rfl⟩
  | _ => exact steps_atStore h 0 _

theorem steps_request (h : s.stores ≠ []) (c : Client) (r : ObjectStore.Request) :
    Steps (some r) s (s.request c r).2 := by
  rcases hnumber : c.number with _ | _ | n
  · simp only [request, hnumber, Route.ofNumber]
    exact steps_atScript h r
  · have hc : Partial c := hnumber
    by_cases hallowed : r.operation ∈ s.restricted.allowed
    · rw [request_of_permits (.inr ⟨hc, hallowed⟩)]
      exact steps_atStore h 0 r
    · obtain ⟨e, t, heq, -, hstores, hsame⟩ := request_of_refused hc hallowed
      rw [heq]
      exact ⟨hstores ▸ h, hsame, .inl (by simp only [storeAt, hstores])⟩
  · simp only [request, hnumber, Route.ofNumber]
    exact steps_atStore h n r

private theorem steps_connect (h : s.stores ≠ []) (endpoint : String)
    (credentials : Option Credentials) : Steps none s (s.connect endpoint credentials).2 := by
  simp only [connect]
  split
  · exact ⟨h, rfl, .inl rfl⟩
  · split
    · refine ⟨by simp, rfl, .inl ?_⟩
      cases hstores : s.stores with
      | nil => exact absurd hstores h
      | cons first others => simp [storeAt, hstores]
    · exact ⟨h, rfl, .inl rfl⟩

/-- Every question gets an answer. -/
theorem exists_answer (q : World.Question) (w : Rehearsal Scripted) :
    ∃ answer mid, play (.question (I := World) q) w = (some answer, mid) := by
  cases q <;> exact ⟨_, _, rfl⟩

/-- The request that a question makes, if it makes one. -/
def requested : World.Question → Option ObjectStore.Request
  | .request _ r => some r
  | _ => none

theorem steps_question (hw : w.services.stores ≠ []) {q : World.Question} {answer : q.Answer}
    (h : play (.question (I := World) q) w = (some answer, mid)) :
    Steps (requested q) w.services mid.services := by
  obtain rfl := (Prod.mk.inj h).2
  cases q with
  | request c r => exact steps_request hw c r
  | connect endpoint credentials => exact steps_connect hw endpoint credentials
  | _ => exact ⟨hw, rfl, .inl rfl⟩

/-- What every call keeps true of the first store stays true, whatever is asked. -/
theorem of_answers {P : Memory → Prop} (hP : ∀ m r, P m → P (m.answer r).2)
    {said : List (Exchange World)} (hw : w.services.stores ≠ []) (h : Answers w said last)
    (hm : P (store w)) :
    last.services.stores ≠ [] ∧
      last.services.restricted.allowed = w.services.restricted.allowed ∧ P (store last) := by
  induction h with
  | nil w => exact ⟨hw, rfl, hm⟩
  | @cons w mid last e said hanswer _ ih =>
    have hsteps := steps_question hw hanswer
    have hmid : P (store mid) := by
      rcases hsteps.store_eq with heq | ⟨r, -, heq⟩
      · exact (congrArg P heq).mpr hm
      · exact (congrArg P heq).mpr (hP _ r hm)
    obtain ⟨hstores, hallowed, hlast⟩ := ih hsteps.stores_ne_nil hmid
    exact ⟨hstores, hallowed.trans hsteps.allowed_eq, hlast⟩

theorem play_send_of_full (hw : w.services.stores ≠ []) (hc : Full c) (r : ObjectStore.Request) :
    ∃ mid, play (c.send r) w = (some ((store w).answer r).1, mid) ∧ mid.services.stores ≠ [] ∧
      store mid = ((store w).answer r).2 := by
  have hplay := play_request w c r
  rw [request_of_permits (.inl hc)] at hplay
  exact ⟨_, hplay, withStore_ne_nil hw 0 _, storeAt_withStore hw _⟩

/-- A question that at most fetches an object leaves the first store as it was. -/
theorem alike_of_fetching {q : World.Question} {answer : q.Answer} (hw : w.services.stores ≠ [])
    (hq : ∀ r, requested q = some r → ∃ bucket key, r = .getObject bucket key)
    (h : Answers w [⟨q, answer⟩] mid) : (store w).Alike (store mid) := by
  obtain ⟨mid, hanswer, hsaid⟩ := Rehearsal.answers_cons.1 h
  obtain rfl := Rehearsal.answers_nil.1 hsaid
  rcases (steps_question hw hanswer).store_eq with heq | ⟨r, hr, heq⟩
  · rw [store, store, heq]
  · obtain ⟨bucket, key, rfl⟩ := hq r hr
    rw [store, store, heq]
    exact Memory.alike_answer_getObject _ bucket key

/-- What a client of the first store gets is the answer of the store, or it is refused and the store
does not learn of the request. -/
theorem answers_request {answer : Except ObjectStore.Error r.Reply} (hw : w.services.stores ≠ [])
    (hc : Full c ∨ Partial c) (h : Answers w [c.exchange r answer] mid) :
    (w.services.Permits c r.operation ∧ (store w).answer r = (answer, store mid)) ∨
      (¬w.services.Permits c r.operation ∧ store mid = store w ∧
        ∃ e, answer = .error e ∧ e.reason = .accessDenied) := by
  obtain ⟨mid, hanswer, hsaid⟩ := Rehearsal.answers_cons.1 h
  obtain rfl := Rehearsal.answers_nil.1 hsaid
  obtain ⟨hreply, rfl⟩ := Prod.mk.inj ((play_request w c r).symm.trans hanswer)
  obtain rfl : (w.services.request c r).1 = answer := Option.some.inj hreply
  by_cases hpermits : w.services.Permits c r.operation
  · refine .inl ⟨hpermits, ?_⟩
    rw [request_of_permits hpermits]
    exact Prod.ext rfl (storeAt_withStore hw _).symm
  · refine .inr ⟨hpermits, ?_⟩
    have hpartial : Partial c := hc.resolve_left fun hfull => hpermits (.inl hfull)
    have hrefused : r.operation ∉ w.services.restricted.allowed :=
      fun hallowed => hpermits (.inr ⟨hpartial, hallowed⟩)
    obtain ⟨e, t, heq, hreason, hstores, -⟩ := request_of_refused hpartial hrefused
    rw [heq]
    exact ⟨by simp only [store, storeAt, hstores], e, rfl, hreason⟩

theorem answers_of_full {answer : Except ObjectStore.Error r.Reply} (hw : w.services.stores ≠ [])
    (hc : Full c) (h : Answers w [c.exchange r answer] mid) :
    (store w).answer r = (answer, store mid) := by
  rcases answers_request hw (.inl hc) h with ⟨-, hanswer⟩ | ⟨hnot, -⟩
  · exact hanswer
  · exact absurd (.inl hc) hnot

/-- A success comes from the store. -/
theorem answers_ok {reply : r.Reply} (hw : w.services.stores ≠ []) (hc : Full c ∨ Partial c)
    (h : Answers w [c.exchange r (.ok reply)] mid) :
    (store w).answer r = (.ok reply, store mid) := by
  rcases answers_request hw hc h with ⟨-, hanswer⟩ | ⟨-, -, e, heq, -⟩
  · exact hanswer
  · exact absurd heq (by simp)

/-- A failure leaves the store as it was, unless it completes an upload into a bucket that is gone.
-/
theorem answers_error {e : ObjectStore.Error} (hw : w.services.stores ≠ [])
    (hc : Full c ∨ Partial c) (h : Answers w [c.exchange r (.error e)] mid) :
    (store w).Alike (store mid) ∨ ∃ upload parts, r = .completeUpload upload parts ∧
      (store w).buckets.get? upload.bucket = none := by
  rcases answers_request hw hc h with ⟨-, hanswer⟩ | ⟨-, hsame, -⟩
  · exact Memory.alike_of_answer_error hanswer
  · rw [hsame]
    exact .inl (.refl _)

end BucketTransfer.Services.Scripted
