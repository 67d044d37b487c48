import BucketTransfer.Proofs.ObjectStore.Paging
import BucketTransfer.Proofs.Provision.Attempts

/-!
# The order of a teardown

What is asked for while a bucket is taken away, whatever is answered: its listing first, then its
keys in batches, then the bucket, then the secret, each stage only if the one before it succeeded
as a whole.
-/
namespace BucketTransfer.Provision
open ObjectStore (Page Summary DeleteResult Paging)
open Dialogue (Course)

/-- A listing that was followed to its end, and the keys on its pages. -/
inductive Listing (bucket : String) : Option String → List Trial → List String → Prop where
  | last (marker : Option String) (failures : List ObjectStore.Error) (page : Page)
      (ends : page.continuation = none) :
      Listing bucket marker [⟨.listObjects bucket "" marker, failures, .ok page⟩]
        (page.objects.map (·.key))
  | next (marker : Option String) (failures : List ObjectStore.Error) (page : Page)
      (onward : String) (advances : page.continuation = some onward) (trials : List Trial)
      (keys : List String) (rest : Listing bucket (some onward) trials keys) :
      Listing bucket marker (⟨.listObjects bucket "" marker, failures, .ok page⟩ :: trials)
        (page.objects.map (·.key) ++ keys)

/-- Keys cut into batches of one size, of which only the last one may be smaller. -/
structure Batched (size : Nat) (keys : List String) (batches : List (List String)) : Prop where
  flatten_eq : batches.flatten = keys
  ne_nil : ∀ b ∈ batches, b ≠ []
  length_le : ∀ b ∈ batches, b.length ≤ size
  length_eq : ∀ b ∈ batches.dropLast, b.length = size

/-- The requests for a batch, and what was answered to the last one. -/
structure Deletion where
  keys : List String
  failures : List ObjectStore.Error
  last : Except ObjectStore.Error DeleteResult

namespace Deletion

def trial (d : Deletion) (bucket : String) : Trial :=
  ⟨.deleteObjects bucket d.keys, d.failures, d.last⟩

/-- All keys of the batch were deleted. -/
def Clean (d : Deletion) : Prop := ∃ result, d.last = .ok result ∧ result.errors = []

end Deletion

/-- The stages of a teardown, as far as it came. -/
structure Stages where
  listing : List Trial
  /-- The keys, if the listing was followed to its end. -/
  keys : Option (List String) := none
  deletions : List Deletion := []
  /-- The failures that came before the last answer to the request for the bucket, and that. -/
  removal : Option (List ObjectStore.Error × Except ObjectStore.Error Unit) := none
  /-- What the store of secrets answered. -/
  secret : Option (Except Secrets.Error Bool) := none

namespace Stages

/-- The requests to the object store, stage by stage. -/
def trials (st : Stages) (bucket : String) : List Trial :=
  st.listing ++ st.deletions.map (·.trial bucket) ++
    st.removal.toList.map fun (failures, last) => ⟨.deleteBucket bucket, failures, last⟩

/-- What is said in all stages. -/
def said (st : Stages) (r : Retry) (c : Client) (bucket secretKey : String) :
    List (Exchange World) :=
  (st.trials bucket).flatMap (·.said r c) ++
    st.secret.toList.map fun answer => ⟨.deleteSecret secretKey, answer⟩

/-- The order of a teardown of a bucket by a provisioner. -/
structure Ordered (st : Stages) (p : Provisioner) (bucket : String)
    (result : Option (Except Error Removed)) : Prop where
  /-- The first stage asks for pages only. -/
  lists : ∀ t ∈ st.listing, ∃ marker, t.request = .listObjects bucket "" marker
  listed : ∀ keys, st.keys = some keys → Listing bucket none st.listing keys
  /-- Nothing is deleted before the listing has ended. -/
  unlisted : st.keys = none → st.deletions = [] ∧ st.removal = none ∧ st.secret = none
  /-- The batches that were sent are the first ones, and all of them if the bucket is deleted. -/
  batches : ∀ keys, st.keys = some keys → ∃ batches, Batched ObjectStore.maxBatch keys batches ∧
    st.deletions.map (·.keys) <+: batches ∧
    (st.removal.isSome → st.deletions.map (·.keys) = batches)
  /-- A batch is sent only if all keys before it were deleted. -/
  clean_of_next : ∀ d ∈ st.deletions.dropLast, d.Clean
  /-- The bucket is deleted only if all its keys were. -/
  clean_of_removal : st.removal.isSome → ∀ d ∈ st.deletions, d.Clean
  /-- The secret goes only after the bucket, and only if it goes at all. -/
  removed_of_secret : st.secret.isSome →
    p.deleteSecret ∧ ∃ failures, st.removal = some (failures, .ok ())
  /-- No step is given up late or early. -/
  given : ∀ t ∈ st.trials bucket, t.Given p.retry
  /-- A teardown that succeeds came through all stages. -/
  succeeded : ∀ removed, result = some (.ok removed) →
    (∃ keys, st.keys = some keys ∧ removed.objects = keys.length) ∧
      (∃ failures, st.removal = some (failures, .ok ())) ∧
        if p.deleteSecret then st.secret = some (.ok removed.secret)
        else st.secret = none ∧ removed.secret = false
  /-- Only a listing can be cut off. -/
  cut : result = none → st.keys = none

theorem forall_mem_trials {st : Stages} {bucket : String} {P : Trial → Prop} :
    (∀ t ∈ st.trials bucket, P t) ↔
      (∀ t ∈ st.listing, P t) ∧ (∀ d ∈ st.deletions, P (d.trial bucket)) ∧
        ∀ failures last, st.removal = some (failures, last) →
          P ⟨.deleteBucket bucket, failures, last⟩ := by
  obtain ⟨listing, keys, deletions, removal, secret⟩ := st
  rcases removal with _ | ⟨failures, last⟩
  · simp [trials, or_imp, forall_and]
  · simp +contextual [trials, or_imp, forall_and]

end Stages

namespace Provisioner

theorem batched_batches (keys : List String) :
    Batched ObjectStore.maxBatch keys (batches keys) := by
  fun_induction batches keys with
  | case1 => exact ⟨rfl, by simp, by simp, by simp⟩
  | case2 keys hne ih =>
    obtain ⟨hflatten, hnonempty, hle, hfull⟩ := ih
    refine ⟨?_, ?_, ?_, ?_⟩
    · rw [List.flatten_cons, hflatten, List.take_append_drop]
    · refine List.forall_mem_cons.2 ⟨?_, hnonempty⟩
      simpa [List.take_eq_nil_iff, ObjectStore.maxBatch] using hne
    · exact List.forall_mem_cons.2 ⟨List.length_take_le .., hle⟩
    · cases hrest : batches (keys.drop ObjectStore.maxBatch) with
      | nil => simp
      | cons b bs =>
        rw [List.dropLast_cons_cons, ← hrest]
        refine List.forall_mem_cons.2 ⟨?_, hfull⟩
        have hb : keys.drop ObjectStore.maxBatch ≠ [] := by
          intro hdrop
          rw [hdrop, batches, if_pos rfl] at hrest
          exact absurd hrest (by simp)
        have hlength := List.length_pos_iff.2 hb
        rw [List.length_drop] at hlength
        rw [List.length_take]
        omega

variable {p : Provisioner} {c : Client} {bucket : String} {said : List (Exchange World)}

/-- The pages of a listing, each asked for until it is given up. -/
private theorem exists_trials_of_paging {stuck : String → Error} {marker : Option String}
    {outcome : Option (Except Error (List Summary))}
    (h : Paging (fun marker => p.persist .listObjects bucket (c.listObjects bucket "" marker)) stuck
      marker said outcome) :
    ∃ trials : List Trial, said = trials.flatMap (·.said p.retry c) ∧
      (∀ t ∈ trials, t.Given p.retry ∧ ∃ marker, t.request = .listObjects bucket "" marker) ∧
      ∀ objects, outcome = some (.ok objects) →
        Listing bucket marker trials (objects.map (·.key)) := by
  induction h with
  | cut marker => exact ⟨[], rfl, by simp, by simp⟩
  | unfetched marker said hcourse =>
    obtain ⟨_, _, -, -, heq⟩ := course_persist hcourse
    exact absurd heq (by simp)
  | failed marker said e hcourse =>
    obtain ⟨failures, last, rfl, hgiven, -⟩ := course_persist hcourse
    exact ⟨[⟨.listObjects bucket "" marker, failures, last⟩], by simp,
      by simpa using hgiven, by simp⟩
  | last marker said page hcourse hends =>
    obtain ⟨failures, rfl, hgiven⟩ := course_persist_ok hcourse
    refine ⟨[⟨.listObjects bucket "" marker, failures, .ok page⟩], by simp,
      by simpa using hgiven, ?_⟩
    intro objects heq
    rw [← Except.ok.inj (Option.some.inj heq)]
    exact .last marker failures page hends
  | stuck marker said page hcourse hsame =>
    obtain ⟨failures, rfl, hgiven⟩ := course_persist_ok hcourse
    exact ⟨[⟨.listObjects bucket "" (some marker), failures, .ok page⟩], by simp,
      by simpa using hgiven, by simp⟩
  | next marker said page onward hcourse hadvances hother later outcome hrest ih =>
    obtain ⟨failures, rfl, hgiven⟩ := course_persist_ok hcourse
    obtain ⟨trials, rfl, htrials, hlisting⟩ := ih
    refine ⟨⟨.listObjects bucket "" marker, failures, .ok page⟩ :: trials, by simp, ?_, ?_⟩
    · exact List.forall_mem_cons.2 ⟨⟨hgiven, marker, rfl⟩, htrials⟩
    · intro objects heq
      rcases outcome with _ | _ | others
      · exact absurd heq (by simp)
      · exact absurd heq (by simp [Except.map])
      · obtain rfl : page.objects ++ others = objects := by simpa [Except.map] using heq
        rw [List.map_append]
        exact .next marker failures page onward hadvances trials _ (hlisting others rfl)

theorem course_listKeys {pages : Nat} {result : Option (Except Error (List String))}
    (h : Course (p.listKeys pages c bucket) said result) :
    ∃ trials : List Trial, said = trials.flatMap (·.said p.retry c) ∧
      (∀ t ∈ trials, t.Given p.retry ∧ ∃ marker, t.request = .listObjects bucket "" marker) ∧
      ∀ keys, result = some (.ok keys) → Listing bucket none trials keys := by
  rcases Dialogue.course_bind.1 h with ⟨first, rest, found, rfl, hlist, hend⟩ | ⟨hlist, rfl⟩
  · obtain ⟨rfl, rfl⟩ := Dialogue.course_pure.1 hend
    obtain ⟨trials, rfl, htrials, hlisting⟩ :=
      exists_trials_of_paging (ObjectStore.course_listAll hlist)
    refine ⟨trials, List.append_nil _, htrials, fun keys hkeys => ?_⟩
    cases found with
    | error e => exact absurd hkeys (by simp [Except.map])
    | ok objects =>
      obtain rfl : objects.map (·.key) = keys := by simpa [Except.map] using hkeys
      exact hlisting objects rfl
  · obtain ⟨trials, rfl, htrials, -⟩ := exists_trials_of_paging (ObjectStore.course_listAll hlist)
    exact ⟨trials, rfl, htrials, by simp⟩

/-- What a batch comes to is decided by the last answer. -/
private theorem course_deleteBatch {keys : List String} {result : Option (Except Error Unit)}
    (h : Course (p.deleteBatch c bucket keys) said result) :
    ∃ (d : Deletion) (outcome : Except Error Unit), result = some outcome ∧ d.keys = keys ∧
      said = (d.trial bucket).said p.retry c ∧ (d.trial bucket).Given p.retry ∧
      (outcome = .ok () → d.Clean) := by
  obtain ⟨first, rest, answer, rfl, hsend, hend⟩ :=
    (finishes_persist p .deleteObjects bucket c (.deleteObjects bucket keys)).course_bind.1 h
  cases answer with
  | error e =>
    obtain ⟨failures, last, rfl, hgiven, -⟩ := course_persist hsend
    obtain ⟨rfl, rfl⟩ := Dialogue.course_pure.1 hend
    exact ⟨⟨keys, failures, last⟩, _, rfl, rfl, List.append_nil _, hgiven, by simp⟩
  | ok deleted =>
    obtain ⟨failures, rfl, hgiven⟩ := course_persist_ok hsend
    cases herrors : deleted.errors with
    | nil =>
      simp only [herrors] at hend
      obtain ⟨rfl, rfl⟩ := Dialogue.course_pure.1 hend
      exact ⟨⟨keys, failures, .ok deleted⟩, _, rfl, rfl, List.append_nil _, hgiven,
        fun _ => ⟨deleted, rfl, herrors⟩⟩
    | cons e others =>
      simp only [herrors] at hend
      obtain ⟨rfl, rfl⟩ := Dialogue.course_pure.1 hend
      exact ⟨⟨keys, failures, .ok deleted⟩, _, rfl, rfl, List.append_nil _, hgiven, by simp⟩

private theorem finishes_deleteBatch (p : Provisioner) (c : Client) (bucket : String)
    (keys : List String) : (p.deleteBatch c bucket keys).Finishes := by
  intro said result h
  obtain ⟨_, _, rfl, -⟩ := course_deleteBatch h
  rfl

theorem course_deleteBatches {bs : List (List String)} {result : Option (Except Error Unit)}
    (h : Course (p.deleteBatches c bucket bs) said result) :
    ∃ (sent : List Deletion) (outcome : Except Error Unit), result = some outcome ∧
      said = (sent.map (·.trial bucket)).flatMap (·.said p.retry c) ∧
      (∀ d ∈ sent, (d.trial bucket).Given p.retry) ∧ sent.map (·.keys) <+: bs ∧
      (∀ d ∈ sent.dropLast, d.Clean) ∧
      (outcome = .ok () → sent.map (·.keys) = bs ∧ ∀ d ∈ sent, d.Clean) := by
  induction bs generalizing said result with
  | nil =>
    obtain ⟨rfl, rfl⟩ := Dialogue.course_pure.1 h
    exact ⟨[], .ok (), rfl, rfl, by simp, List.nil_prefix, by simp, by simp⟩
  | cons batch rest ih =>
    obtain ⟨first, later, answer, rfl, hbatch, hrest⟩ :=
      (finishes_deleteBatch p c bucket batch).course_bind.1 h
    obtain ⟨d, _, heq, rfl, rfl, hgiven, hclean⟩ := course_deleteBatch hbatch
    obtain rfl := Option.some.inj heq
    cases answer with
    | error e =>
      obtain ⟨rfl, rfl⟩ := Dialogue.course_pure.1 hrest
      exact ⟨[d], .error e, rfl, by simp, by simpa using hgiven, by simp, by simp, by simp⟩
    | ok value =>
      obtain ⟨sent, outcome, rfl, rfl, hsent, hpre, hnext, hall⟩ := ih hrest
      have hd := hclean rfl
      refine ⟨d :: sent, outcome, rfl, by simp, ?_, ?_, ?_, ?_⟩
      · exact List.forall_mem_cons.2 ⟨hgiven, hsent⟩
      · rw [List.map_cons]
        exact (List.prefix_cons_inj d.keys).2 hpre
      · cases sent with
        | nil => simp
        | cons next others => exact List.forall_mem_cons.2 ⟨hd, hnext⟩
      · intro hok
        obtain ⟨heq, hothers⟩ := hall hok
        exact ⟨by rw [List.map_cons, heq], List.forall_mem_cons.2 ⟨hd, hothers⟩⟩

private theorem finishes_deleteBatches (p : Provisioner) (c : Client) (bucket : String)
    (bs : List (List String)) : (p.deleteBatches c bucket bs).Finishes := by
  intro said result h
  obtain ⟨_, _, rfl, -⟩ := course_deleteBatches h
  rfl

private theorem course_removeSecret {key : String} {result : Option (Except Secrets.Error Bool)}
    (h : Course (p.removeSecret key) said result) :
    ∃ outcome, result = some outcome ∧
      ((p.deleteSecret ∧ said = [⟨.deleteSecret key, outcome⟩]) ∨
        (¬p.deleteSecret ∧ said = [] ∧ outcome = .ok false)) := by
  rw [removeSecret] at h
  split at h
  · rename_i hdelete
    obtain ⟨answer, rfl, rfl⟩ := Dialogue.course_question.1 h
    exact ⟨answer, rfl, .inl ⟨hdelete, rfl⟩⟩
  · rename_i hkeep
    obtain ⟨rfl, rfl⟩ := Dialogue.course_pure.1 h
    exact ⟨.ok false, rfl, .inr ⟨hkeep, rfl, rfl⟩⟩

private theorem finishes_removeSecret (p : Provisioner) (key : String) :
    (p.removeSecret key).Finishes := by
  intro said result h
  obtain ⟨_, rfl, -⟩ := course_removeSecret h
  rfl

/-- The last two stages of a teardown. -/
private theorem runs_removal {resource key : String} {count : Nat} {kept : Clients}
    {result : Option (Except Error Removed × Clients)}
    (h : Task.Runs (do
      Task.attempt id (p.persist .deleteBucket bucket (c.deleteBucket bucket))
      let secret ← Task.attempt Error.secret (p.removeSecret key)
      return ⟨resource, count, secret⟩) kept said result) :
    ∃ (failures : List ObjectStore.Error) (last : Except ObjectStore.Error Unit)
      (secret : Option (Except Secrets.Error Bool)) (outcome : Except Error Removed),
      result = some (outcome, kept) ∧
        said = (⟨.deleteBucket bucket, failures, last⟩ : Trial).said p.retry c ++
          secret.toList.map (fun answer => ⟨.deleteSecret key, answer⟩) ∧
        (⟨.deleteBucket bucket, failures, last⟩ : Trial).Given p.retry ∧
        (secret.isSome → p.deleteSecret ∧ last = .ok ()) ∧
        (∀ removed, outcome = .ok removed → removed.objects = count ∧ last = .ok () ∧
          if p.deleteSecret then secret = some (.ok removed.secret)
          else secret = none ∧ removed.secret = false) ∧
        ∀ e, outcome = .error e → last = .ok () →
          ∃ cause, e = .secret cause ∧ secret = some (.error cause) := by
  have hbucket := finishes_persist p .deleteBucket bucket c (.deleteBucket bucket)
  have hfinishes := finishes_removeSecret p key
  rcases (Task.runs_attempt_bind_of_finishes hbucket).1 h with
    ⟨first, later, _, rfl, hremove, hlater⟩ | ⟨e, hremove, rfl⟩
  · obtain ⟨failures, rfl, hgiven⟩ := course_persist_ok hremove
    refine ⟨failures, .ok (), ?_⟩
    rcases (Task.runs_attempt_bind_of_finishes hfinishes).1 hlater with
      ⟨first, last, removed, rfl, hcourse, hend⟩ | ⟨e, hcourse, rfl⟩
    · obtain ⟨_, heq, hdone⟩ := course_removeSecret hcourse
      obtain rfl := Option.some.inj heq
      obtain ⟨rfl, rfl⟩ := Task.runs_pure.1 hend
      rcases hdone with ⟨hdelete, rfl⟩ | ⟨hkeep, rfl, hfalse⟩
      · exact ⟨some (.ok removed), _, rfl, by simp, hgiven, by simp [hdelete],
          by simp [hdelete], by simp⟩
      · obtain rfl := Except.ok.inj hfalse
        exact ⟨none, _, rfl, by simp, hgiven, by simp, by simp [hkeep], by simp⟩
    · obtain ⟨_, heq, hdone⟩ := course_removeSecret hcourse
      obtain rfl := Option.some.inj heq
      rcases hdone with ⟨hdelete, rfl⟩ | ⟨-, -, hfalse⟩
      · exact ⟨some (.error e), _, rfl, by simp, hgiven, by simp [hdelete], by simp, by simp⟩
      · exact absurd hfalse (by simp)
  · obtain ⟨failures, last, rfl, hgiven, heq⟩ := course_persist hremove
    refine ⟨failures, last, none, .error e, rfl, by simp, hgiven, by simp, by simp, ?_⟩
    rintro _ - rfl
    cases heq

/-- A teardown that does not get past its listing. -/
private theorem ordered_listing {listing : List Trial} {result : Option (Except Error Removed)}
    (h : ∀ t ∈ listing, t.Given p.retry ∧ ∃ marker, t.request = .listObjects bucket "" marker)
    (hresult : ∀ removed, result ≠ some (.ok removed)) :
    (⟨listing, none, [], none, none⟩ : Stages).Ordered p bucket result := by
  constructor
  case lists => exact fun t ht => (h t ht).2
  case given => exact Stages.forall_mem_trials.2 ⟨fun t ht => (h t ht).1, by simp, by simp⟩
  case succeeded => exact fun removed heq => absurd heq (hresult removed)
  all_goals simp

/-- The stages that a teardown goes through with a client. Once the bucket is deleted, nothing but
the secret can keep it from success. -/
private theorem runs_stages {pages : Nat} {resource key : String} {kept : Clients}
    {result : Option (Except Error Removed × Clients)}
    (h : Task.Runs (do
      let keys ← Task.attempt id (p.listKeys pages c bucket)
      Task.attempt id (p.deleteBatches c bucket (batches keys))
      Task.attempt id (p.persist .deleteBucket bucket (c.deleteBucket bucket))
      let secret ← Task.attempt Error.secret (p.removeSecret key)
      return ⟨resource, keys.length, secret⟩) kept said result) :
    ∃ st : Stages, said = st.said p.retry c bucket key ∧
      st.Ordered p bucket (result.map Prod.fst) ∧
      ∀ e failures, result.map Prod.fst = some (.error e) → st.removal = some (failures, .ok ()) →
        ∃ cause, e = .secret cause ∧ st.secret = some (.error cause) := by
  rcases Task.runs_attempt_bind.1 h with ⟨first, later, keys, rfl, hlist, hlater⟩ |
    ⟨e, hlist, rfl⟩ | ⟨hlist, rfl⟩
  · obtain ⟨listing, rfl, htrials, hlisting⟩ := course_listKeys hlist
    have hbatched := batched_batches keys
    have hfinishes := finishes_deleteBatches p c bucket (batches keys)
    rcases (Task.runs_attempt_bind_of_finishes hfinishes).1 hlater with
      ⟨first, last, _, rfl, hdelete, hremove⟩ | ⟨e, hdelete, rfl⟩
    · obtain ⟨sent, _, heq, rfl, hsent, hpre, hnext, hall⟩ := course_deleteBatches hdelete
      obtain ⟨hkeys, hclean⟩ := hall (Option.some.inj heq).symm
      obtain ⟨failures, answer, secret, outcome, rfl, rfl, hgiven, hsecret, hdone, hfailed⟩ :=
        runs_removal hremove
      refine ⟨⟨listing, some keys, sent, some (failures, answer), secret⟩, ?_, ?_, ?_⟩
      · simp [Stages.said, Stages.trials]
      · constructor
        case lists => exact fun t ht => (htrials t ht).2
        case listed =>
          rintro _ ⟨⟩
          exact hlisting keys rfl
        case unlisted => simp
        case batches =>
          rintro _ ⟨⟩
          exact ⟨batches keys, hbatched, hpre, fun _ => hkeys⟩
        case clean_of_next => exact hnext
        case clean_of_removal => exact fun _ => hclean
        case removed_of_secret =>
          intro hsome
          obtain ⟨hset, hok⟩ := hsecret hsome
          exact ⟨hset, failures, by rw [hok]⟩
        case given =>
          refine Stages.forall_mem_trials.2 ⟨fun t ht => (htrials t ht).1, hsent, ?_⟩
          rintro _ _ ⟨⟩
          exact hgiven
        case succeeded =>
          intro removed hremoved
          obtain ⟨hcount, hok, hsecrets⟩ := hdone removed (Option.some.inj hremoved)
          exact ⟨⟨keys, rfl, hcount⟩, ⟨failures, by rw [hok]⟩, hsecrets⟩
        case cut => simp
      · rintro e _ heq ⟨⟩
        exact hfailed e (Option.some.inj heq) rfl
    · obtain ⟨sent, _, -, rfl, hsent, hpre, hnext, -⟩ := course_deleteBatches hdelete
      refine ⟨⟨listing, some keys, sent, none, none⟩, ?_, ?_, by simp⟩
      · simp [Stages.said, Stages.trials]
      · constructor
        case lists => exact fun t ht => (htrials t ht).2
        case listed =>
          rintro _ ⟨⟩
          exact hlisting keys rfl
        case batches =>
          rintro _ ⟨⟩
          exact ⟨batches keys, hbatched, hpre, by simp⟩
        case clean_of_next => exact hnext
        case given =>
          exact Stages.forall_mem_trials.2 ⟨fun t ht => (htrials t ht).1, hsent, by simp⟩
        all_goals simp
  · obtain ⟨listing, rfl, htrials, -⟩ := course_listKeys hlist
    exact ⟨⟨listing, none, [], none, none⟩, by simp [Stages.said, Stages.trials],
      ordered_listing htrials (by simp), by simp⟩
  · obtain ⟨listing, rfl, htrials, -⟩ := course_listKeys hlist
    exact ⟨⟨listing, none, [], none, none⟩, by simp [Stages.said, Stages.trials],
      ordered_listing htrials (by simp), by simp⟩

/-- A teardown gets no client, or it goes through its stages with one. If it fails with the bucket
deleted, it is for the secret that could not be taken away. -/
theorem runs_deprovision_stages {pages : Nat} {r : Bucket.Provisioned} {kept : Clients}
    {result : Option (Except Error Removed × Clients)}
    (h : (p.deprovision pages r).Runs kept said result) :
    (∃ cause, Clients.Obtained kept r.descriptor.endpoint said (.error cause) ∧
      result.map Prod.fst = some (.error (.store .resolveClient r.descriptor.bucketName cause))) ∨
    ∃ opening c, ∃ st : Stages,
      said = opening ++ st.said p.retry c r.descriptor.bucketName r.secretKey ∧
        Clients.Obtained kept r.descriptor.endpoint opening (.ok c) ∧
        st.Ordered p r.descriptor.bucketName (result.map Prod.fst) ∧
        ∀ e failures, result.map Prod.fst = some (.error e) →
          st.removal = some (failures, .ok ()) →
            ∃ cause, e = .secret cause ∧ st.secret = some (.error cause) := by
  rcases runs_client_bind h with ⟨opening, c, rest, _, rfl, hfound, hrest⟩ |
    ⟨cause, _, hfound, rfl⟩
  · obtain ⟨st, rfl, hst⟩ := runs_stages hrest
    exact .inr ⟨opening, c, st, rfl, hfound, hst⟩
  · exact .inl ⟨cause, hfound, rfl⟩

/-- A teardown gets its client and goes through its stages. -/
theorem runs_deprovision {pages : Nat} {r : Bucket.Provisioned} {kept : Clients}
    {result : Option (Except Error Removed × Clients)}
    (h : (p.deprovision pages r).Runs kept said result) :
    ∃ opening found rest, said = opening ++ rest ∧
      Clients.Obtained kept r.descriptor.endpoint opening found ∧
      match found with
      | .error e => rest = [] ∧
        result.map Prod.fst = some (.error (.store .resolveClient r.descriptor.bucketName e))
      | .ok c => ∃ st : Stages, rest = st.said p.retry c r.descriptor.bucketName r.secretKey ∧
        st.Ordered p r.descriptor.bucketName (result.map Prod.fst) ∧
        ∀ e failures, result.map Prod.fst = some (.error e) →
          st.removal = some (failures, .ok ()) → ∃ cause, e = .secret cause := by
  rcases runs_deprovision_stages h with ⟨cause, hfound, hresult⟩ |
    ⟨opening, c, st, rfl, hfound, hordered, hlast⟩
  · exact ⟨said, .error cause, [], (List.append_nil said).symm, hfound, rfl, hresult⟩
  · refine ⟨opening, .ok c, _, rfl, hfound, st, rfl, hordered, fun e failures he hremoval => ?_⟩
    obtain ⟨cause, hcause, -⟩ := hlast e failures he hremoval
    exact ⟨cause, hcause⟩

/-- A teardown keeps to its order, whatever is answered at any time. -/
theorem converse_deprovision (p : Provisioner) (pages : Nat) (r : Bucket.Provisioned)
    (kept : Clients) (answer : List (Exchange World) → (q : World.Question) → q.Answer) :
    let (said, result) := ((p.deprovision pages r).run kept).converse answer []
    ∃ opening found rest, said = opening ++ rest ∧
      Clients.Obtained kept r.descriptor.endpoint opening found ∧
      match found with
      | .error e => rest = [] ∧
        result.map Prod.fst = some (.error (.store .resolveClient r.descriptor.bucketName e))
      | .ok c => ∃ st : Stages, rest = st.said p.retry c r.descriptor.bucketName r.secretKey ∧
        st.Ordered p r.descriptor.bucketName (result.map Prod.fst) := by
  have h : Task.Runs (p.deprovision pages r) kept _ _ :=
    Dialogue.course_converse answer ((p.deprovision pages r).run kept) []
  obtain ⟨opening, found, rest, hsaid, hfound, hrest⟩ := runs_deprovision h
  refine ⟨opening, found, rest, hsaid, hfound, ?_⟩
  cases found with
  | error e => exact hrest
  | ok c =>
    obtain ⟨st, hst, hordered, -⟩ := hrest
    exact ⟨st, hst, hordered⟩

end Provisioner

end BucketTransfer.Provision
