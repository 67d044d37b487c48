import BucketTransfer.Proofs.ObjectStore.Precarious
import BucketTransfer.Proofs.Provision.Listing
import BucketTransfer.Proofs.Provision.Removal

/-!
# Teardowns that are taken up again

A teardown fails at some call, which may have had its effect for all that. A second one, with
services that answer everything, comes to its end if the first one left the bucket, however many of
its objects are gone. If the bucket is gone, its listing fails, and the secret is never asked for.
-/
namespace BucketTransfer.Provision
open Dialogue (Course)
open ObjectStore (Memory Request)
open ObjectStore.Memory
open Secrets (Keeper)
open Services (InMemory)

variable {p : Provisioner} {r : Retry} {c : Client} {bucket key : String} {m n : Memory}
  {k k' : Keeper} {said : List (Exchange World)} {objects : KeyMap Bytes}

section Answered

/-- A request that is answered at once, and not with a failure that may pass, is made once. -/
theorem Trial.answered {t : Trial} {answer : Except ObjectStore.Error t.request.Reply}
    (hgiven : t.Given r) (hanswer : m.answer t.request = (answer, n))
    (hfinal : ∀ e, answer = .error e → ¬e.isRetryable) {last : Memory}
    (h : Leads Memory.Step m (t.said r c) last) : t.last = answer ∧ last = n := by
  obtain ⟨request, failures, reply⟩ := t
  cases failures with
  | nil =>
    have hstep : m.answer request = (reply, last) := leads_singleton.1 h
    obtain ⟨hreply, hlast⟩ := Prod.mk.inj (hstep.symm.trans hanswer)
    exact ⟨hreply, hlast⟩
  | cons e rest =>
    simp only [Trial.said, List.map_cons, Retry.failed_cons] at h
    obtain ⟨_, hfirst, -⟩ := leads_cons.1 h
    have herror : answer = .error e := congrArg Prod.fst (hanswer.symm.trans hfirst)
    exact absurd (hgiven.retryable_of_mem e List.mem_cons_self) (hfinal e herror)

namespace Provisioner

theorem persist_of_answered {step : Step} {request : Request}
    {answer : Except ObjectStore.Error request.Reply} {result : Option (Except Error request.Reply)}
    (hanswer : m.answer request = (answer, n))
    (hfinal : ∀ e, answer = .error e → ¬e.isRetryable) {last : Memory}
    (h : Course (p.persist step bucket (c.send request)) said result)
    (hm : Leads Memory.Step m said last) :
    result = some (answer.mapError (.store step bucket)) ∧ last = n := by
  obtain ⟨failures, reply, rfl, hgiven, rfl⟩ := course_persist h
  obtain ⟨rfl, hlast⟩ := Trial.answered hgiven hanswer hfinal hm
  exact ⟨rfl, hlast⟩

/-- A listing of a store that answers every request for a page comes to its end. -/
theorem listKeys_of_unhindered {pages : Nat} {result : Option (Except Error (List String))}
    (hfaults : m.Unhindered .listObjects) (hsize : 0 < m.pageSize)
    (hobjects : m.buckets.get? bucket = some objects)
    (hpages : pagesFor objects.size m.pageSize ≤ pages)
    (h : Course (p.listKeys pages c bucket) said result) (hm : Leads Memory.Step m said n) :
    result = some (.ok objects.keys) ∧ m.Alike n := by
  let w : Rehearsal InMemory := { services := { store := m, issuer := {} } }
  have hw : InMemory.Listed m bucket 0 w := ⟨hfaults, .refl m, rfl⟩
  obtain ⟨last, hplay, hlisted⟩ := hw.play_listKeys p c hobjects hsize hpages
  obtain ⟨rehearsed, hcourse, hanswers⟩ := Rehearsal.play_eq_some_iff.1 hplay
  obtain ⟨hstore, -⟩ := InMemory.leads_of_answers hanswers
  obtain ⟨trials, rfl, -, -⟩ := course_listKeys h
  obtain ⟨rfl, rfl⟩ := h.unique hcourse hm hstore fun e he answer s t t' hstep hstep' => by
    rcases mem_trials he with ⟨time, rfl⟩ | ⟨trial, -, answered, rfl⟩
    · exact ⟨rfl, Eq.trans hstep (Eq.symm hstep')⟩
    · exact Prod.mk.inj (Eq.trans (Eq.symm hstep) hstep')
  exact ⟨rfl, hlisted.alike⟩

/-- There is no first page of a bucket that is not there. -/
private theorem listAll_of_none {pages : Nat} {stuck : String → Error}
    {found : Option (Except Error (List ObjectStore.Summary))}
    (hfaults : m.Unhindered .listObjects) (hnone : m.buckets.get? bucket = none)
    (hpages : 0 < pages)
    (h : Course (ObjectStore.listAll pages
      (fun marker => p.persist .listObjects bucket (c.listObjects bucket "" marker)) stuck)
      said found) (hm : Leads Memory.Step m said n) :
    found = some (.error (.store .listObjects bucket (noSuchBucket bucket))) := by
  have hanswer : (m.answer (.listObjects bucket "" none)).1 = .error (noSuchBucket bucket) := by
    rw [answer_of_unhindered hfaults]
    simp only [effect, hnone]
  have hfinal : ∀ e, (.error (noSuchBucket bucket) : Except _ ObjectStore.Page) = .error e →
      ¬e.isRetryable := by
    rintro _ ⟨⟩
    exact Bool.false_ne_true
  obtain ⟨rest, rfl⟩ := Nat.exists_eq_succ_of_ne_zero (Nat.ne_of_gt hpages)
  obtain ⟨first, later, fetched, rfl, hfetch, hend⟩ :=
    (finishes_persist p .listObjects bucket c (.listObjects bucket "" none)).course_bind.1 h
  obtain ⟨_, hfirst, -⟩ := leads_append.1 hm
  obtain ⟨heq, -⟩ := persist_of_answered (Prod.ext hanswer rfl) hfinal hfetch hfirst
  obtain rfl := Option.some.inj heq
  exact (Dialogue.course_pure.1 hend).2

/-- A listing of a bucket that is not there fails. -/
theorem listKeys_of_none {pages : Nat} {result : Option (Except Error (List String))}
    (hfaults : m.Unhindered .listObjects) (hnone : m.buckets.get? bucket = none)
    (hpages : 0 < pages) (h : Course (p.listKeys pages c bucket) said result)
    (hm : Leads Memory.Step m said n) :
    result = some (.error (.store .listObjects bucket (noSuchBucket bucket))) := by
  rcases Dialogue.course_bind.1 h with ⟨listed, last, found, rfl, hlist, hend⟩ | ⟨hlist, rfl⟩
  · obtain ⟨_, hfirst, -⟩ := leads_append.1 hm
    obtain rfl := Option.some.inj (listAll_of_none hfaults hnone hpages hlist hfirst)
    exact (Dialogue.course_pure.1 hend).2
  · exact absurd (listAll_of_none hfaults hnone hpages hlist hm) (by simp)

/-- A batch is deleted by a store that answers. -/
private theorem deleteBatch_of_unhindered {keys gone : List String}
    {result : Option (Except Error Unit)} {m₀ : Memory} (hfaults : m.Unhindered .deleteObjects)
    (hleft : Depleted m₀ bucket gone m) (hlength : keys.length ≤ ObjectStore.maxBatch)
    (h : Course (p.deleteBatch c bucket keys) said result) (hm : Leads Memory.Step m said n) :
    result = some (.ok ()) ∧ Depleted m₀ bucket (gone ++ keys) n := by
  obtain ⟨_, left, -, hheld, -⟩ := hleft.left
  have hanswer : (m.answer (.deleteObjects bucket keys)).1 = .ok { deleted := keys } := by
    rw [answer_of_unhindered hfaults]
    simp only [effect, hheld, if_neg (Nat.not_lt.2 hlength)]
  obtain ⟨first, later, answer, rfl, hsend, hend⟩ :=
    (finishes_persist p .deleteObjects bucket c (.deleteObjects bucket keys)).course_bind.1 h
  obtain ⟨mid, hfirst, hlater⟩ := leads_append.1 hm
  obtain ⟨heq, rfl⟩ := persist_of_answered (Prod.ext hanswer rfl) (by simp) hsend hfirst
  obtain rfl := Option.some.inj heq
  obtain ⟨rfl, rfl⟩ := hend.of_pure hlater
  exact ⟨rfl, hleft.deleted (Prod.ext hanswer rfl)⟩

theorem deleteBatches_of_unhindered {bs : List (List String)} {gone : List String}
    {result : Option (Except Error Unit)} {m₀ : Memory} (hfaults : m.Unhindered .deleteObjects)
    (hleft : Depleted m₀ bucket gone m) (hlength : ∀ b ∈ bs, b.length ≤ ObjectStore.maxBatch)
    (h : Course (p.deleteBatches c bucket bs) said result) (hm : Leads Memory.Step m said n) :
    result = some (.ok ()) ∧ Depleted m₀ bucket (gone ++ bs.flatten) n := by
  induction bs generalizing said result gone m with
  | nil =>
    obtain ⟨rfl, rfl⟩ := h.of_pure hm
    exact ⟨rfl, by simpa using hleft⟩
  | cons batch rest ih =>
    obtain ⟨hbatch, hrest⟩ := List.forall_mem_cons.1 hlength
    rcases Dialogue.course_bind.1 h with ⟨first, later, answer, rfl, hfirst, hlater⟩ | ⟨hfirst, -⟩
    · obtain ⟨mid, hmid, hothers⟩ := leads_append.1 hm
      obtain ⟨heq, hless⟩ := deleteBatch_of_unhindered hfaults hleft hbatch hfirst hmid
      obtain rfl := Option.some.inj heq
      have hmid' := unhindered_of_leads hmid hfaults
      obtain ⟨hresult, hend⟩ := ih hmid' hless hrest hlater hothers
      exact ⟨hresult, by simpa using hend⟩
    · exact absurd (deleteBatch_of_unhindered hfaults hleft hbatch hfirst hm).1 (by simp)

end Provisioner

end Answered

/-- New clients can be made and secrets be taken away. -/
def Obliging (e : Exchange World) : Prop :=
  match e with
  | ⟨.connect .., answer⟩ => ∃ c, answer = .ok c
  | ⟨.deleteSecret _, answer⟩ => ∃ there, answer = .ok there
  | _ => True

/-- What is said with services that answer everything: where it leads a store and a keeper of
secrets. -/
structure Smooth (said : List (Exchange World)) (m n : Memory) (k k' : Keeper) : Prop where
  unhindered : ∀ operation, m.Unhindered operation
  store : Leads Memory.Step m said n
  keeper : Leads Keeper.Step k said k'
  obliging : ∀ e ∈ said, Obliging e

namespace Provisioner

/-- With services that answer everything a bucket that holds nothing is taken away. -/
private theorem runs_of_empty {resource : String} {count : Nat} {kept : Clients}
    {result : Option (Except Error Removed × Clients)} (hdelete : p.deleteSecret)
    (hfaults : m.Unhindered .deleteBucket) (hempty : m.buckets.get? bucket = some ∅)
    (h : Task.Runs (do
      Task.attempt id (p.persist .deleteBucket bucket (c.deleteBucket bucket))
      let secret ← Task.attempt Error.secret (p.removeSecret key)
      return ⟨resource, count, secret⟩) kept said result)
    (hm : Leads Memory.Step m said n) (hobliging : ∀ e ∈ said, Obliging e) :
    ∃ there, result = some (.ok ⟨resource, count, there⟩, kept) := by
  have hanswer : (m.answer (.deleteBucket bucket)).1 = .ok () := by
    rw [answer_of_unhindered hfaults]
    exact effect_deleteBucket hempty
  have hremove := finishes_persist p .deleteBucket bucket c (.deleteBucket bucket)
  rcases (Task.runs_attempt_bind_of_finishes hremove).1 h with
    ⟨first, later, _, rfl, hfirst, hlater⟩ | ⟨e, hfailed, -⟩
  · rw [removeSecret, if_pos hdelete] at hlater
    rcases (Task.runs_attempt_bind_of_finishes Dialogue.finishes_question).1 hlater with
      ⟨_, rest, there, rfl, hasked, hend⟩ | ⟨e, hasked, -⟩
    · exact ⟨there, (Task.runs_pure.1 hend).2⟩
    · obtain ⟨answer, rfl, heq⟩ := Dialogue.course_question.1 hasked
      obtain ⟨there, rfl⟩ := hobliging _ (List.mem_append_right _ (List.mem_singleton_self _))
      cases heq
  · obtain ⟨heq, -⟩ := persist_of_answered (Prod.ext hanswer rfl) (by simp) hfailed hm
    exact absurd heq (by simp [Except.mapError])

/-- With services that answer everything a bucket that is there is taken away. -/
private theorem runs_of_some {pages : Nat} {resource : String} {kept : Clients}
    {result : Option (Except Error Removed × Clients)} (hdelete : p.deleteSecret)
    (hfaults : ∀ operation, m.Unhindered operation) (hsize : 0 < m.pageSize)
    (hobjects : m.buckets.get? bucket = some objects)
    (hpages : pagesFor objects.size m.pageSize ≤ pages)
    (h : Task.Runs (do
      let keys ← Task.attempt id (p.listKeys pages c bucket)
      Task.attempt id (p.deleteBatches c bucket (batches keys))
      Task.attempt id (p.persist .deleteBucket bucket (c.deleteBucket bucket))
      let secret ← Task.attempt Error.secret (p.removeSecret key)
      return ⟨resource, keys.length, secret⟩) kept said result)
    (hm : Leads Memory.Step m said n) (hobliging : ∀ e ∈ said, Obliging e) :
    ∃ there, result = some (.ok ⟨resource, objects.size, there⟩, kept) := by
  have hlisting : ∀ {said : List (Exchange World)} {n : Memory} {found},
      Course (p.listKeys pages c bucket) said found → Leads Memory.Step m said n →
        found = some (.ok objects.keys) ∧ m.Alike n :=
    listKeys_of_unhindered (hfaults _) hsize hobjects hpages
  rcases Task.runs_attempt_bind.1 h with ⟨first, rest, keys, rfl, hlist, hrest⟩ |
    ⟨e, hlist, -⟩ | ⟨hlist, -⟩
  · obtain ⟨listed, hfirst, hlater⟩ := leads_append.1 hm
    obtain ⟨heq, halike⟩ := hlisting hlist hfirst
    obtain rfl := Except.ok.inj (Option.some.inj heq)
    have hlisted : Depleted m bucket [] listed := (Depleted.of_same hobjects).of_alike halike
    have hunhindered := fun operation => unhindered_of_leads hfirst (hfaults operation)
    have hbatched := batched_batches objects.keys
    have hdeletions : ∀ {said : List (Exchange World)} {n : Memory} {answer},
        Course (p.deleteBatches c bucket (batches objects.keys)) said answer →
          Leads Memory.Step listed said n →
            answer = some (.ok ()) ∧ Depleted m bucket ([] ++ (batches objects.keys).flatten) n :=
      deleteBatches_of_unhindered (hunhindered _) hlisted hbatched.length_le
    rcases Task.runs_attempt_bind.1 hrest with ⟨second, last, _, rfl, hbatches, hremove⟩ |
      ⟨e, hbatches, -⟩ | ⟨hbatches, -⟩
    · obtain ⟨mid, hsecond, hlast⟩ := leads_append.1 hlater
      obtain ⟨-, hleft⟩ := hdeletions hbatches hsecond
      have hempty : mid.buckets.get? bucket = some ∅ := by
        refine hleft.get?_eq_empty hobjects fun key hkey => ?_
        rwa [List.nil_append, hbatched.flatten_eq]
      have hsize : objects.keys.length = objects.size := List.length_map _
      rw [← hsize]
      exact runs_of_empty hdelete (unhindered_of_leads hsecond (hunhindered _)) hempty hremove hlast
        fun e he => hobliging e (by simp [he])
    · exact absurd (hdeletions hbatches hlater).1 (by simp)
    · exact absurd (hdeletions hbatches hlater).1 (by simp)
  · exact absurd (hlisting hlist hm).1 (by simp)
  · exact absurd (hlisting hlist hm).1 (by simp)

/-- A teardown that fails keeps all secrets. -/
theorem secrets_of_error {pages : Nat} {r : Bucket.Provisioned} {kept left : Clients} {e : Error}
    (h : (p.deprovision pages r).Runs kept said (some (.error e, left)))
    (hk : Leads Keeper.Step k said k') : k'.secrets = k.secrets := by
  rcases runs_deprovision_stages h with ⟨cause, hfound, -⟩ |
    ⟨opening, c, st, rfl, hfound, hordered, hlast⟩
  · rw [hfound.eq_of_leads hk fun _ _ h => h]
  · obtain ⟨mid, hopening, hrest⟩ := leads_append.1 hk
    obtain rfl := hfound.eq_of_leads hopening fun _ _ h => h
    by_cases hremoved : ∃ failures, st.removal = some (failures, .ok ())
    · obtain ⟨failures, hremoval⟩ := hremoved
      obtain ⟨cause, -, hsecret⟩ := hlast e failures rfl hremoval
      rcases ((Stages.Ordered.leads_keeper hrest).2 _ hsecret).deleted_or_kept with
        ⟨hok, -⟩ | ⟨-, hkept⟩
      · exact absurd hok (by simp)
      · exact hkept
    · rw [hordered.kept_of_not_removed hremoved hrest]

/-- A teardown that succeeds with a store that answers takes away the bucket and the secret. -/
private theorem effects_of_ok {pages : Nat} {r : Bucket.Provisioned} {kept left : Clients}
    {removed : Removed} (h : (p.deprovision pages r).Runs kept said (some (.ok removed, left)))
    (hdelete : p.deleteSecret) (hsize : 0 < m.pageSize)
    (hobjects : m.buckets.get? r.descriptor.bucketName = some objects)
    (hm : Leads Memory.Step m said n) (hk : Leads Keeper.Step k said k') :
    removed.secret = k.secrets.contains r.secretKey ∧
      n.buckets = m.buckets.erase r.descriptor.bucketName ∧
      k'.secrets = k.secrets.erase r.secretKey := by
  rcases runs_deprovision_stages h with ⟨cause, -, hresult⟩ |
    ⟨opening, c, st, rfl, hfound, hordered, -⟩
  · exact absurd hresult (by simp)
  · obtain ⟨mid, hopening, hrest⟩ := leads_append.1 hm
    obtain ⟨keeper, hidle, hsecret⟩ := leads_append.1 hk
    obtain rfl := hfound.eq_of_leads hopening fun _ _ h => h
    obtain rfl := hfound.eq_of_leads hidle fun _ _ h => h
    obtain ⟨-, hremoval, -⟩ := hordered.succeeded removed rfl
    obtain ⟨-, -, hdone, -⟩ := hordered.leads hsize hobjects hrest
    obtain ⟨hthere, hsecrets⟩ := hordered.secret_of_succeeded rfl hsecret
    rw [hdelete, Bool.true_and] at hthere
    rw [if_pos hdelete] at hsecrets
    exact ⟨hthere, (hdone hremoval).1, hsecrets⟩

/-- What a teardown comes to with services that answer everything: it succeeds if the bucket is
there, and fails if it is not. -/
private theorem result_of_smooth {pages : Nat} {r : Bucket.Provisioned} {kept : Clients}
    {result : Option (Except Error Removed × Clients)} (hs : Smooth said m n k k')
    (hdelete : p.deleteSecret) (hsize : 0 < m.pageSize)
    (h : (p.deprovision pages r).Runs kept said result) :
    (∀ objects, m.buckets.get? r.descriptor.bucketName = some objects →
      pagesFor objects.size m.pageSize ≤ pages →
        ∃ there left, result = some (.ok ⟨r.descriptor.id, objects.size, there⟩, left)) ∧
      (m.buckets.get? r.descriptor.bucketName = none → 0 < pages →
        ∃ left, result = some (.error (.store .listObjects r.descriptor.bucketName
          (noSuchBucket r.descriptor.bucketName)), left)) := by
  rcases runs_client_bind h with ⟨opening, c, rest, left, rfl, hfound, hrest⟩ |
    ⟨cause, _, hfound, -⟩
  · obtain ⟨mid, hopening, hstore⟩ := leads_append.1 hs.store
    obtain rfl := hfound.eq_of_leads hopening fun _ _ h => h
    constructor
    · intro objects hobjects hpages
      have hobliging : ∀ e ∈ rest, Obliging e := fun e he =>
        hs.obliging e (List.mem_append_right _ he)
      obtain ⟨there, hresult⟩ :=
        runs_of_some hdelete hs.unhindered hsize hobjects hpages hrest hstore hobliging
      exact ⟨there, left, hresult⟩
    · intro hnone hpages
      have hlisting : ∀ {said : List (Exchange World)} {n : Memory} {found},
          Course (p.listKeys pages c r.descriptor.bucketName) said found →
            Leads Memory.Step mid said n →
              found = some (.error (.store .listObjects r.descriptor.bucketName
                (noSuchBucket r.descriptor.bucketName))) :=
        listKeys_of_none (hs.unhindered _) hnone hpages
      rcases Task.runs_attempt_bind.1 hrest with ⟨first, last, keys, rfl, hlist, -⟩ |
        ⟨e, hlist, rfl⟩ | ⟨hlist, -⟩
      · obtain ⟨_, hfirst, -⟩ := leads_append.1 hstore
        exact absurd (hlisting hlist hfirst) (by simp)
      · obtain rfl := Except.error.inj (Option.some.inj (hlisting hlist hstore))
        exact ⟨left, rfl⟩
      · exact absurd (hlisting hlist hstore) (by simp)
  · cases hfound with
    | made absent answer =>
      obtain ⟨c, hc⟩ := hs.obliging _ (List.mem_singleton_self _)
      cases hc

/-- What is said in a teardown is only what a bucket is taken away with. -/
private theorem dismantling_of_runs {pages : Nat} {r : Bucket.Provisioned} {kept : Clients}
    {result : Option (Except Error Removed × Clients)}
    (h : (p.deprovision pages r).Runs kept said result) :
    ∀ e ∈ said, Dismantling r.descriptor.bucketName e := by
  intro e he c request hquestion
  rcases runs_deprovision_stages h with ⟨cause, hfound, -⟩ |
    ⟨opening, c', st, rfl, hfound, hordered, -⟩
  · obtain rfl := hfound.eq_of_mem he
    cases hquestion
  · have htrials : ∀ t ∈ st.trials r.descriptor.bucketName,
        Dismantles r.descriptor.bucketName t.request := by
      refine Stages.forall_mem_trials.2
        ⟨fun t ht => ?_, fun d _ => .empty d.keys, fun _ _ _ => .delete⟩
      obtain ⟨marker, hrequest⟩ := hordered.lists t ht
      rw [hrequest]
      exact .list marker
    rcases List.mem_append.1 he with hopening | hstages
    · obtain rfl := hfound.eq_of_mem hopening
      cases hquestion
    · rcases List.mem_append.1 hstages with hrequest | hsecret
      · rcases mem_trials hrequest with ⟨time, rfl⟩ | ⟨t, ht, answer, rfl⟩
        · cases hquestion
        · cases hquestion
          exact htrials t ht
      · obtain ⟨answer, -, rfl⟩ := List.mem_map.1 hsecret
        cases hquestion

/-- A teardown of a bucket fails, at any call and with or without the effect of that. Then a second
one, once no call fails any more, takes away what is left of the bucket and the secret, if the
bucket is there. It is if its deletion was not asked for, and it is not if that was answered. If it
is not there, the second one fails, and the secret stays. -/
theorem runs_deprovision_again {pages : Nat} {r : Bucket.Provisioned} {kept left : Clients}
    {e : Error} (hdelete : p.deleteSecret) (hsize : 0 < m.pageSize)
    (hobjects : m.buckets.get? r.descriptor.bucketName = some objects)
    (hpages : pagesFor objects.size m.pageSize ≤ pages)
    (hfailed : (p.deprovision pages r).Runs kept said (some (.error e, left)))
    (hm : Leads Memory.Precariously m said n) (hk : Leads Keeper.Step k said k')
    {kept' : Clients} {said' : List (Exchange World)}
    {again : Option (Except Error Removed × Clients)} {after : Memory} {k'' : Keeper}
    (hagain : (p.deprovision pages r).Runs kept' said' again)
    (hs : Smooth said' { n with faults := [] } after k' k'') :
    let bucket := r.descriptor.bucketName
    ((∀ c reply, Client.exchange c (.deleteBucket bucket) reply ∉ said) →
      ∃ remaining, n.buckets.get? bucket = some remaining) ∧
    ((∃ c, Client.exchange c (.deleteBucket bucket) (.ok ()) ∈ said) →
      n.buckets.get? bucket = none) ∧
    (∀ remaining, n.buckets.get? bucket = some remaining → ∃ kept'',
      again = some (.ok ⟨r.descriptor.id, remaining.size, k.secrets.contains r.secretKey⟩, kept'') ∧
        after.buckets = m.buckets.erase bucket ∧ k''.secrets = k.secrets.erase r.secretKey) ∧
    (n.buckets.get? bucket = none → ∃ kept'',
      again = some (.error (.store .listObjects bucket (noSuchBucket bucket)), kept'') ∧
        k''.secrets = k.secrets) := by
  have hrequests := dismantling_of_runs hfailed
  have hremains := remains_of_leads hm hrequests
  have hsecrets := secrets_of_error hfailed hk
  have hsize' : 0 < n.pageSize := hremains.pageSize ▸ hsize
  obtain ⟨hthere, hgone⟩ := result_of_smooth hs hdelete hsize' hagain
  refine ⟨fun hnever => ?_, fun ⟨c, hdeleted⟩ => none_of_deleted hm hrequests hdeleted,
    fun remaining hremaining => ?_, fun hnone => ?_⟩
  · refine Option.isSome_iff_exists.1 (isSome_of_leads hm hrequests (by rw [hobjects]; rfl) ?_)
    rintro ⟨_, reply⟩ he c rfl
    exact hnever c reply he
  · have hfewer : remaining.size ≤ objects.size := hremains.size_le hobjects hremaining
    have hless : pagesFor remaining.size n.pageSize ≤ pages := by
      rw [hremains.pageSize]
      exact Nat.le_trans (pagesFor_mono hfewer) hpages
    obtain ⟨there, kept'', rfl⟩ := hthere remaining hremaining hless
    obtain ⟨rfl, hbuckets, hsecret⟩ :=
      effects_of_ok (m := { n with faults := [] }) hagain hdelete hsize' hremaining hs.store
        hs.keeper
    refine ⟨kept'', by rw [hsecrets], ?_, hsecrets ▸ hsecret⟩
    refine hbuckets.trans (KeyMap.ext_get? fun b => ?_)
    rw [KeyMap.get?_erase, KeyMap.get?_erase]
    split
    · rfl
    · rename_i hb
      exact hremains.others b hb
  · have hpos : 0 < pages := Nat.lt_of_lt_of_le (pagesFor_pos ..) hpages
    obtain ⟨kept'', rfl⟩ := hgone hnone hpos
    exact ⟨kept'', rfl, (secrets_of_error hagain hs.keeper).trans hsecrets⟩

/-- Services that answer for pages and for a bucket as they are told; no batch comes through. -/
private def answering (page : Except ObjectStore.Error ObjectStore.Page)
    (bucket : Except ObjectStore.Error Unit) (_ : List (Exchange World)) :
    (q : World.Question) → q.Answer
  | .request _ (.listObjects ..) => page
  | .request _ (.deleteBucket _) => bucket
  | .request _ _ => .error (.transport "lost")
  | .connect endpoint _ => .ok ⟨0, endpoint⟩
  | .issueToken _ => .error (.transport "lost")
  | .resolveSecret _ => .ok none
  | .storeSecret _ _ => .ok ()
  | .deleteSecret _ => .ok true
  | .file (.inspect _) => .error .absent
  | .file (.read _) => .error .absent
  | .file (.write _ _) => .error .absent
  | .file (.createDirectories _) => .error .absent
  | .file (.rename _ _) => .error .absent
  | .pause _ => ()
  | .now => 0
  | .random => []

private theorem runs_answering {pages : Nat} {r : Bucket.Provisioned} {kept : Clients}
    {page : Except ObjectStore.Error ObjectStore.Page} {reply : Except ObjectStore.Error Unit}
    {result : Option (Except Error Removed × Clients)}
    (h : ((p.deprovision pages r).run kept).converse (answering page reply) [] = (said, result)) :
    (p.deprovision pages r).Runs kept said result := by
  have hcourse :=
    Dialogue.course_converse (answering page reply) ((p.deprovision pages r).run kept) []
  rwa [h] at hcourse

/-- A batch is deleted although that is not heard of, and the teardown is taken up again. -/
theorem runs_deprovision_again_of_lost_batch :
    let p : Provisioner := ⟨.every 1 10, 900, true⟩
    let r := Bucket.Provisioned.ofDescriptor ⟨"r1", "t1", "b", "memory://obs", ""⟩ "k"
    let m := (Memory.withPages "memory://obs" 10).seed "b" [("a", [1])]
    let secrets := (∅ : Secrets).insert "k" "v"
    ∃ said e left n k' said' again after k'',
      (p.deprovision 1 r).Runs ∅ said (some (.error e, left)) ∧
        Leads Memory.Precariously m said n ∧ Leads Keeper.Step (.memory secrets) said k' ∧
        (p.deprovision 1 r).Runs left said' (some again) ∧
        Smooth said' { n with faults := [] } after k' k'' ∧ again.1 = .ok ⟨"r1", 0, true⟩ ∧
        after.buckets.get? "b" = none ∧ k''.secrets.get? "k" = none := by
  intro p r m secrets
  let c : Client := ⟨0, "memory://obs"⟩
  let kept := (∅ : Clients).insert "memory://obs" c
  let lost : ObjectStore.Error := .transport "lost"
  let found : ObjectStore.Page :=
    { objects := [{ key := "a", size := 1, etag := some (ObjectStore.plainEtag [1]) }] }
  let send (request : Request) (n : Memory) : Memory := (n.answer request).2
  let list : Request := .listObjects "b" "" none
  let n := send (.deleteObjects "b" ["a"]) (send list m)
  have hsaid : ((p.deprovision 1 r).run ∅).converse (answering (.ok found) (.error lost)) [] =
      ([⟨.connect "memory://obs" none, .ok c⟩, c.exchange list (.ok found),
        c.exchange (.deleteObjects "b" ["a"]) (.error lost)],
        some (.error (.store .deleteObjects "b" lost), kept)) := by
    with_unfolding_all rfl
  have hsaid' : ((p.deprovision 1 r).run kept).converse (answering (.ok {}) (.ok ())) [] =
      ([c.exchange list (.ok {}), c.exchange (.deleteBucket "b") (.ok ()),
        ⟨.deleteSecret "k", .ok true⟩], some (.ok ⟨"r1", 0, true⟩, kept)) := by
    with_unfolding_all rfl
  have hm : Leads Memory.Precariously m [⟨.connect "memory://obs" none, .ok c⟩,
      c.exchange list (.ok found), c.exchange (.deleteObjects "b" ["a"]) (.error lost)] n :=
    .cons rfl <| .cons (.answered (Prod.ext (by decide +kernel) rfl)) <|
      .cons (.unanswered _ lost) <| .nil n
  have hk : Leads Keeper.Step (.memory secrets) [⟨.connect "memory://obs" none, .ok c⟩,
      c.exchange list (.ok found), c.exchange (.deleteObjects "b" ["a"]) (.error lost)]
      (.memory secrets) := .cons rfl <| .cons rfl <| .cons rfl <| .nil _
  have hs : Smooth [c.exchange list (.ok {}), c.exchange (.deleteBucket "b") (.ok ()),
      ⟨.deleteSecret "k", .ok true⟩] { n with faults := [] }
      (send (.deleteBucket "b") (send list { n with faults := [] })) (.memory secrets)
      (.memory (secrets.erase "k")) := by
    constructor
    case unhindered => simp [Memory.Unhindered]
    case store =>
      exact .cons (Prod.ext (by decide +kernel) rfl) <|
        .cons (Prod.ext (by decide +kernel) rfl) <| .cons rfl <| .nil _
    case keeper => exact .cons rfl <| .cons rfl <| .cons (.memory secrets) <| .nil _
    case obliging =>
      simp only [List.forall_mem_cons]
      exact ⟨trivial, trivial, ⟨true, rfl⟩, fun _ he => absurd he List.not_mem_nil⟩
  obtain ⟨-, -, hthere, -⟩ := runs_deprovision_again rfl (by decide) rfl (by decide)
    (runs_answering hsaid) hm hk (runs_answering hsaid') hs
  obtain ⟨kept'', hagain, hbuckets, hsecrets⟩ := hthere ∅ (by decide +kernel)
  refine ⟨_, _, _, _, _, _, _, _, _, runs_answering hsaid, hm, hk, runs_answering hsaid', hs, rfl,
    ?_, ?_⟩
  · rw [hbuckets, KeyMap.get?_erase]
    exact if_pos rfl
  · rw [hsecrets, KeyMap.get?_erase]
    exact if_pos rfl

/-- The bucket is deleted although that is not heard of. The teardown cannot be taken up again, and
the secret stays. -/
theorem not_runs_deprovision_again_of_lost_bucket :
    let p : Provisioner := ⟨.every 1 10, 900, true⟩
    let r := Bucket.Provisioned.ofDescriptor ⟨"r1", "t1", "b", "memory://obs", ""⟩ "k"
    let m := (Memory.withPages "memory://obs" 10).seed "b" []
    let secrets := (∅ : Secrets).insert "k" "v"
    ∃ said e left n k' said' again after k'',
      (p.deprovision 1 r).Runs ∅ said (some (.error e, left)) ∧
        Leads Memory.Precariously m said n ∧ Leads Keeper.Step (.memory secrets) said k' ∧
        (p.deprovision 1 r).Runs left said' (some again) ∧
        Smooth said' { n with faults := [] } after k' k'' ∧
        again.1 = .error (.store .listObjects "b" (noSuchBucket "b")) ∧
        k''.secrets.get? "k" = some "v" := by
  intro p r m secrets
  let c : Client := ⟨0, "memory://obs"⟩
  let kept := (∅ : Clients).insert "memory://obs" c
  let lost : ObjectStore.Error := .transport "lost"
  let gone : ObjectStore.Error := noSuchBucket "b"
  let send (request : Request) (n : Memory) : Memory := (n.answer request).2
  let list : Request := .listObjects "b" "" none
  let n := send (.deleteBucket "b") (send list m)
  have hsaid : ((p.deprovision 1 r).run ∅).converse (answering (.ok {}) (.error lost)) [] =
      ([⟨.connect "memory://obs" none, .ok c⟩, c.exchange list (.ok {}),
        c.exchange (.deleteBucket "b") (.error lost)],
        some (.error (.store .deleteBucket "b" lost), kept)) := by
    with_unfolding_all rfl
  have hsaid' : ((p.deprovision 1 r).run kept).converse (answering (.error gone) (.ok ())) [] =
      ([c.exchange list (.error gone)], some (.error (.store .listObjects "b" gone), kept)) := by
    with_unfolding_all rfl
  refine ⟨_, _, _, n, .memory secrets, _, _, send list { n with faults := [] }, .memory secrets,
    runs_answering hsaid, ?_, ?_, runs_answering hsaid', ?_, rfl, rfl⟩
  · exact .cons rfl <| .cons (.answered (Prod.ext (by decide +kernel) rfl)) <|
      .cons (.unanswered _ lost) <| .nil n
  · exact .cons rfl <| .cons rfl <| .cons rfl <| .nil _
  · constructor
    case unhindered => simp [Memory.Unhindered]
    case store => exact .cons (Prod.ext (by decide +kernel) rfl) <| .nil _
    case keeper => exact .cons rfl <| .nil _
    case obliging => exact List.forall_mem_singleton.2 trivial

end Provisioner

end BucketTransfer.Provision
