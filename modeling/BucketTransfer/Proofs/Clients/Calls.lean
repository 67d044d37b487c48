import BucketTransfer.Proofs.Dialogue.Task
import BucketTransfer.Proofs.KeyMap.Lookup
import Mathlib.Data.List.DropRight

/-!
# Clients over many calls

Clients are obtained, made with credentials of their own, and closed, in any order and as often as
one likes, and whoever makes them may fail each time. The clients that are kept are those that were
made for an endpoint since they were last closed, one for each endpoint.
-/
namespace BucketTransfer.Clients
open Dialogue (Course)

/-! ## Calls -/

/-- What clients can be called for. -/
inductive Call where
  | obtain (endpoint : String)
  | withCredentials (endpoint : String) (credentials : Credentials)
  | shutDown
  deriving DecidableEq, Repr

namespace Call

abbrev Value : Call → Type
  | obtain _ | withCredentials .. => Except ObjectStore.Error Client
  | shutDown => Unit

/-- What the world is asked in a call, which ends with its value and the clients that are kept. -/
def dialogue : (call : Call) → Clients → Dialogue World (call.Value × Clients)
  | obtain endpoint, kept => (Clients.obtain endpoint).run kept
  | withCredentials endpoint credentials, kept =>
    (Task.attempt id (Clients.withCredentials endpoint credentials)).run kept
  | shutDown, kept => kept.shutDown

end Call

/-- Calls, each answered with what was said in it and its value. -/
abbrev Calls : Interface := ⟨Call, fun call => List (Exchange World) × call.Value⟩

/-- What a call does to the clients that are kept. -/
def Step (kept : Clients) (e : Exchange Calls) (kept' : Clients) : Prop :=
  Course (e.question.dialogue kept) e.answer.1 (some (e.answer.2, kept'))

/-- The client that was made in an exchange with the credentials of the connector. -/
def made? : Exchange World → Option (String × Client)
  | ⟨.connect endpoint none, .ok c⟩ => some (endpoint, c)
  | _ => none

/-- The clients that were made in calls with the credentials of the connector. -/
def made (calls : List (Exchange Calls)) : List (String × Client) :=
  calls.flatMap fun e => e.answer.1.filterMap made?

/-- The last calls of which none closes the clients. -/
def sinceShutDown (calls : List (Exchange Calls)) : List (Exchange Calls) :=
  calls.rtakeWhile fun e => decide (e.question ≠ .shutDown)

/-- The client that was closed in an exchange, with success or not. -/
def closed? : Exchange World → Option Client
  | ⟨.request c .close, _⟩ => some c
  | _ => none

variable {kept kept' : Clients} {e : Exchange Calls} {calls : List (Exchange Calls)}
  {said : List (Exchange World)} {endpoint : String} {c : Client}

/-! ## What a call can do -/

/-- The ways a call can change the clients that are kept. -/
inductive Change (kept : Clients) : Exchange Calls → Clients → Prop where
  | obtained {endpoint : String} {said : List (Exchange World)}
      {found : Except ObjectStore.Error Client} (come : Obtained kept endpoint said found) :
      Change kept ⟨.obtain endpoint, (said, found)⟩ (kept.after endpoint found)
  | apart (endpoint : String) (credentials : Credentials)
      (found : Except ObjectStore.Error Client) :
      Change kept ⟨.withCredentials endpoint credentials,
        ([⟨.connect endpoint (some credentials), found⟩], found)⟩ kept
  | closed (answers : List (Client × Except ObjectStore.Error Unit))
      (all : answers.map Prod.fst = kept.entries.map Prod.snd) :
      Change kept ⟨.shutDown, (answers.map fun x => x.1.exchange .close x.2, ())⟩ ∅

theorem course_closeAll {clients : List Client} {result : Option Unit} :
    Course (closeAll clients) said result ↔
      result = some () ∧ ∃ answers : List (Client × Except ObjectStore.Error Unit),
        answers.map Prod.fst = clients ∧ said = answers.map fun x => x.1.exchange .close x.2 := by
  induction clients generalizing said with
  | nil =>
    rw [closeAll, Dialogue.course_pure]
    simp only [List.map_eq_nil_iff, exists_eq_left, List.map_nil]
    exact and_comm
  | cons c clients ih =>
    rw [closeAll, Client.close, Dialogue.course_send_bind]
    constructor
    · rintro ⟨answer, rest, rfl, hrest⟩
      obtain ⟨rfl, answers, rfl, rfl⟩ := ih.1 hrest
      exact ⟨rfl, (c, answer) :: answers, rfl, rfl⟩
    · rintro ⟨rfl, answers, hclients, rfl⟩
      obtain ⟨⟨_, answer⟩, answers, rfl, rfl, rfl⟩ := List.map_eq_cons_iff.1 hclients
      exact ⟨answer, _, rfl, ih.2 ⟨rfl, answers, rfl, rfl⟩⟩

private theorem course_withCredentials {credentials : Credentials}
    {result : Option (Except ObjectStore.Error Client × Clients)} :
    Course ((Call.withCredentials endpoint credentials).dialogue kept) said result ↔
      ∃ found, said = [⟨.connect endpoint (some credentials), found⟩] ∧
        result = some (found, kept) := by
  constructor
  · intro h
    obtain ⟨found, rest, rfl, hrest⟩ := Dialogue.course_question_bind.1 h
    refine ⟨found, ?_⟩
    cases found with
    | error cause =>
      obtain ⟨rfl, rfl⟩ := Dialogue.course_pure.1 hrest
      exact ⟨rfl, rfl⟩
    | ok c =>
      obtain ⟨rfl, rfl⟩ := Dialogue.course_pure.1 hrest
      exact ⟨rfl, rfl⟩
  · rintro ⟨found, rfl, rfl⟩
    refine Dialogue.course_question_bind.2 ⟨found, [], rfl, ?_⟩
    cases found with
    | error cause => exact Dialogue.course_pure.2 ⟨rfl, rfl⟩
    | ok c => exact Dialogue.course_pure.2 ⟨rfl, rfl⟩

private theorem course_shutDown {result : Option (Unit × Clients)} :
    Course kept.shutDown said result ↔
      ∃ answers : List (Client × Except ObjectStore.Error Unit),
        answers.map Prod.fst = kept.entries.map Prod.snd ∧
          said = answers.map (fun x => x.1.exchange .close x.2) ∧ result = some ((), ∅) := by
  rw [shutDown, Dialogue.course_bind]
  constructor
  · rintro (⟨first, second, _, rfl, hfirst, hsecond⟩ | ⟨hcut, -⟩)
    · obtain ⟨-, answers, hclients, rfl⟩ := course_closeAll.1 hfirst
      obtain ⟨rfl, rfl⟩ := Dialogue.course_pure.1 hsecond
      exact ⟨answers, hclients, List.append_nil _, rfl⟩
    · exact absurd (course_closeAll.1 hcut).1 (by simp)
  · rintro ⟨answers, hclients, rfl, rfl⟩
    exact .inl ⟨_, [], (), (List.append_nil _).symm,
      course_closeAll.2 ⟨rfl, answers, hclients, rfl⟩, Dialogue.course_pure.2 ⟨rfl, rfl⟩⟩

/-- A call is never cut off, and it does what it can do whatever is answered. -/
theorem course_dialogue {call : Call} {result : Option (call.Value × Clients)} :
    Course (call.dialogue kept) said result ↔
      ∃ value kept', result = some (value, kept') ∧ Change kept ⟨call, (said, value)⟩ kept' := by
  cases call with
  | obtain endpoint =>
    refine runs_obtain_iff.trans ⟨?_, ?_⟩
    · rintro ⟨found, hfound, rfl⟩
      exact ⟨found, _, rfl, .obtained hfound⟩
    · rintro ⟨_, _, rfl, hchange⟩
      cases hchange with
      | obtained come => exact ⟨_, come, rfl⟩
  | withCredentials endpoint credentials =>
    rw [course_withCredentials]
    constructor
    · rintro ⟨found, rfl, rfl⟩
      exact ⟨found, kept, rfl, .apart endpoint credentials found⟩
    · rintro ⟨found, _, rfl, hchange⟩
      cases hchange
      exact ⟨found, rfl, rfl⟩
  | shutDown =>
    refine course_shutDown.trans ?_
    constructor
    · rintro ⟨answers, hclients, rfl, rfl⟩
      exact ⟨(), ∅, rfl, .closed answers hclients⟩
    · rintro ⟨_, _, rfl, hchange⟩
      cases hchange with
      | closed answers hclients => exact ⟨answers, hclients, rfl, rfl⟩

theorem step_iff : Step kept e kept' ↔ Change kept e kept' := by
  rw [Step, course_dialogue]
  constructor
  · rintro ⟨_, _, heq, hchange⟩
    obtain ⟨rfl, rfl⟩ := Prod.mk.inj (Option.some.inj heq)
    exact hchange
  · intro hchange
    exact ⟨_, _, rfl, hchange⟩

/-! ## What calls come to -/

theorem sinceShutDown_append_of_ne (h : e.question ≠ .shutDown) :
    sinceShutDown (calls ++ [e]) = sinceShutDown calls ++ [e] :=
  List.rtakeWhile_concat_pos _ _ _ (decide_eq_true h)

theorem sinceShutDown_append_of_eq (h : e.question = .shutDown) :
    sinceShutDown (calls ++ [e]) = [] :=
  List.rtakeWhile_concat_neg _ _ _ (by simp [h])

theorem made_concat : made (calls ++ [e]) = made calls ++ e.answer.1.filterMap made? := by
  rw [made, List.flatMap_append, List.flatMap_singleton, made]

/-- After any call the clients that are kept are those that were made since the last closing, if
they were before. -/
theorem Change.perm_entries (h : Change kept e kept')
    (hkept : (made (sinceShutDown calls)).Perm kept.entries) :
    (made (sinceShutDown (calls ++ [e]))).Perm kept'.entries := by
  cases h with
  | @obtained endpoint said found come =>
    rw [sinceShutDown_append_of_ne (by simp), made_concat]
    cases come with
    | kept c there =>
      rw [after, KeyMap.insert_of_get?_eq_some there, List.filterMap_nil, List.append_nil]
      exact hkept
    | made absent =>
      cases found with
      | error cause => exact (List.append_nil _).symm ▸ hkept
      | ok c =>
        exact (List.perm_append_singleton _ _).trans
          ((hkept.cons _).trans (KeyMap.perm_entries_insert absent).symm)
  | apart endpoint credentials found =>
    rw [sinceShutDown_append_of_ne (by simp), made_concat]
    exact (List.append_nil _).symm ▸ hkept
  | closed answers all =>
    rw [sinceShutDown_append_of_eq rfl]
    exact .nil

/-- The clients that are kept are those that were made since they were last closed. -/
theorem perm_entries_of_leads (h : Leads Step ∅ calls kept) :
    (made (sinceShutDown calls)).Perm kept.entries := by
  induction calls using List.reverseRecOn generalizing kept with
  | nil =>
    obtain rfl := leads_nil.1 h
    exact .nil
  | append_singleton calls e ih =>
    obtain ⟨mid, hcalls, hstep⟩ := leads_append.1 h
    exact (step_iff.1 (leads_singleton.1 hstep)).perm_entries (ih hcalls)

variable {before : List (Exchange Calls)}

theorem get?_eq_some_of_leads (h : Leads Step ∅ before kept) :
    kept.get? endpoint = some c ↔ (endpoint, c) ∈ made (sinceShutDown before) :=
  (KeyMap.mem_entries (e := (endpoint, c))).symm.trans (perm_entries_of_leads h).mem_iff.symm

theorem get?_eq_none_of_leads (h : Leads Step ∅ before kept) :
    kept.get? endpoint = none ↔ ∀ c, (endpoint, c) ∉ made (sinceShutDown before) := by
  rw [Option.eq_none_iff_forall_ne_some]
  exact forall_congr' fun c => not_congr (get?_eq_some_of_leads h)

theorem nodup_made_of_leads (h : Leads Step ∅ before kept) :
    ((made (sinceShutDown before)).map Prod.fst).Nodup :=
  ((perm_entries_of_leads h).map Prod.fst).nodup_iff.2
    (kept.pairwise_keys.imp String.ne_of_lt)

/-- The clients that are asked to close are those of the answers. -/
theorem filterMap_closed? (answers : List (Client × Except ObjectStore.Error Unit)) :
    (answers.map fun x => x.1.exchange .close x.2).filterMap closed? = answers.map Prod.fst := by
  rw [List.filterMap_map]
  exact congrFun List.filterMap_eq_map answers

/-- What a call says and leaves, told by the clients that were made since the last closing. -/
def Due (made : List (String × Client)) (kept kept' : Clients) : Exchange Calls → Prop
  | ⟨.obtain endpoint, (said, found)⟩ =>
    (∀ c, (endpoint, c) ∈ made → said = [] ∧ found = .ok c ∧ kept' = kept) ∧
      ((∀ c, (endpoint, c) ∉ made) → said = [⟨.connect endpoint none, found⟩] ∧
        ∀ cause, found = .error cause → kept' = kept)
  | ⟨.withCredentials endpoint credentials, (said, found)⟩ =>
    said = [⟨.connect endpoint (some credentials), found⟩] ∧ kept' = kept
  | ⟨.shutDown, (said, _)⟩ =>
    kept' = ∅ ∧
      (∃ answers : List (Client × Except ObjectStore.Error Unit),
        said = answers.map fun x => x.1.exchange .close x.2) ∧
      ∀ c, (said.filterMap closed?).count c = (made.map Prod.snd).count c

/-- After any calls, whatever the world answered in them, the next call is never cut off. A client
is asked for with the credentials of the connector unless one was made for the endpoint since the
last closing, which is the one that is found, so that at most one is made for each endpoint; a
client with other credentials is asked for each time and never kept; and a closing closes each
client as often as it was made since the last closing, however that is answered. -/
theorem due_of_calls (h : Leads Step ∅ before kept) :
    (∀ call : Call, (call.dialogue kept).Finishes) ∧
      ((made (sinceShutDown before)).map Prod.fst).Nodup ∧
      ∀ e kept', Step kept e kept' → Due (made (sinceShutDown before)) kept kept' e := by
  refine ⟨fun call said result hcourse => ?_, nodup_made_of_leads h, fun e kept' hstep => ?_⟩
  · obtain ⟨_, _, rfl, -⟩ := course_dialogue.1 hcourse
    rfl
  cases step_iff.1 hstep with
  | @obtained endpoint said found come =>
    cases come with
    | kept c there =>
      refine ⟨fun c' hc' => ?_, fun hnone => ?_⟩
      · obtain rfl := Option.some.inj (there.symm.trans ((get?_eq_some_of_leads h).2 hc'))
        exact ⟨rfl, rfl, KeyMap.insert_of_get?_eq_some there⟩
      · exact absurd ((get?_eq_some_of_leads h).1 there) (hnone c)
    | made absent =>
      refine ⟨fun c hc => absurd hc ((get?_eq_none_of_leads h).1 absent c), fun _ => ⟨rfl, ?_⟩⟩
      rintro cause rfl
      rfl
  | apart endpoint credentials found => exact ⟨rfl, rfl⟩
  | closed answers all =>
    refine ⟨rfl, ⟨answers, rfl⟩, fun c => ?_⟩
    rw [filterMap_closed?, all]
    exact (((perm_entries_of_leads h).map Prod.snd).count_eq c).symm

/-- A client that could not be made at first and one for another endpoint are kept and closed, the
one with credentials of its own is neither, and that the first cannot be closed changes nothing. -/
theorem due_of_mixed_calls :
    let a : Client := ⟨0, "http://a"⟩
    let b : Client := ⟨2, "http://b"⟩
    let keys : Credentials := ⟨"AK", "SK", none⟩
    let refused : ObjectStore.Error := .transport "refused"
    let before : List (Exchange Calls) :=
      [⟨.obtain "http://a", ([⟨.connect "http://a" none, .error refused⟩], .error refused)⟩,
       ⟨.obtain "http://a", ([⟨.connect "http://a" none, .ok a⟩], .ok a)⟩,
       ⟨.withCredentials "http://a" keys,
        ([⟨.connect "http://a" (some keys), .ok ⟨1, "http://a"⟩⟩], .ok ⟨1, "http://a"⟩)⟩,
       ⟨.obtain "http://b", ([⟨.connect "http://b" none, .ok b⟩], .ok b)⟩,
       ⟨.obtain "http://a", ([], .ok a)⟩]
    let kept : Clients := (KeyMap.insert ∅ "http://a" a).insert "http://b" b
    let closing : Exchange Calls :=
      ⟨.shutDown, ([a.exchange .close (.error refused), b.exchange .close (.ok ())], ())⟩
    Leads Step ∅ before kept ∧ Step kept closing ∅ ∧
      Due (made (sinceShutDown before)) kept ∅ closing := by
  intro a b keys refused before kept closing
  have hbefore : Leads Step ∅ before kept := by
    have hthere : kept.get? "http://a" = some a := by decide
    have hagain : Change kept ⟨.obtain "http://a", ([], .ok a)⟩ (kept.insert "http://a" a) :=
      .obtained (.kept a hthere)
    rw [KeyMap.insert_of_get?_eq_some hthere] at hagain
    exact .cons (step_iff.2 (.obtained (.made rfl _)))
      (.cons (step_iff.2 (.obtained (.made rfl _)))
        (.cons (step_iff.2 (.apart _ _ _))
          (.cons (step_iff.2 (.obtained (.made (by decide) _)))
            (.cons (step_iff.2 hagain) (.nil _)))))
  have hclosing : Step kept closing ∅ :=
    step_iff.2 (.closed [(a, .error refused), (b, .ok ())] (by decide))
  exact ⟨hbefore, hclosing, (due_of_calls hbefore).2.2 closing ∅ hclosing⟩

/-- A client that was made for two endpoints is closed twice. -/
theorem shared_client_closed_twice :
    ¬ ∀ (before : List (Exchange Calls)) (kept : Clients) (said : List (Exchange World))
      (kept' : Clients), Leads Step ∅ before kept → Step kept ⟨.shutDown, (said, ())⟩ kept' →
        ∀ c, c ∈ (made (sinceShutDown before)).map Prod.snd →
          (said.filterMap closed?).count c = 1 := by
  intro h
  let c : Client := ⟨0, "memory://obs"⟩
  let before : List (Exchange Calls) :=
    [⟨.obtain "http://a", ([⟨.connect "http://a" none, .ok c⟩], .ok c)⟩,
     ⟨.obtain "http://b", ([⟨.connect "http://b" none, .ok c⟩], .ok c)⟩]
  have hbefore : Leads Step ∅ before ((KeyMap.insert ∅ "http://a" c).insert "http://b" c) :=
    .cons (step_iff.2 (.obtained (.made rfl _)))
      (.cons (step_iff.2 (.obtained (.made (by decide) _))) (.nil _))
  have hclosing : Step ((KeyMap.insert ∅ "http://a" c).insert "http://b" c)
      ⟨.shutDown, ([c.exchange .close (.ok ()), c.exchange .close (.ok ())], ())⟩ ∅ :=
    step_iff.2 (.closed [(c, .ok ()), (c, .ok ())] (by decide))
  have htwice := h before _ _ _ hbefore hclosing c (by decide)
  exact absurd htwice (by decide)

end BucketTransfer.Clients
