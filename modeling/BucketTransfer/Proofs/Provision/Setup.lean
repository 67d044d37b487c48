import BucketTransfer.Proofs.Bucket.Name
import BucketTransfer.Proofs.Bucket.Resource
import BucketTransfer.Proofs.Provision.Attempts
import BucketTransfer.Proofs.Secrets.Keeper

/-!
# The order of a setup

What is asked for while a bucket is provided, whatever is answered: the bucket first, then a
credential that can do nothing but put objects into it, then a place for the secret. A setup that
fails leaves no secret behind.
-/
namespace BucketTransfer

namespace Provision
open Dialogue (Course)
open Secrets (Keeper)

theorem checkName_of_violations {d : Bucket.Descriptor} (h : violations d = []) :
    Bucket.checkName d.bucketName = .ok () := by
  simp only [violations, List.append_eq_nil_iff] at h
  obtain ⟨⟨hname, -⟩, -⟩ := h
  split at hname
  · exact absurd hname (by simp)
  · split at hname
    · assumption
    · exact absurd hname (by simp)

/-- The bucket can be used: it was created, or it is there and belongs to the account. -/
def Owned (last : Except ObjectStore.Error Unit) : Prop :=
  ∀ e, last = .error e → e.code? = some .bucketAlreadyOwnedByYou

/-- The requests for a credential: the failures that came first, and the last answer. -/
structure Issuance where
  failures : List Identity.Error
  last : Except Identity.Error TemporaryCredential

namespace Issuance

/-- What is said while a credential for a bucket is asked for: the same request each time. -/
def said (i : Issuance) (p : Provisioner) (bucket : String) : List (Exchange World) :=
  p.retry.tried (fun answer => ⟨.issueToken ⟨p.tokenSeconds, .putOnly bucket⟩, answer⟩) i.failures
    i.last

/-- Whether the service was given up when it had to be, and not before. -/
def Given (i : Issuance) (r : Retry) : Prop := r.Given (·.isRetryable) i.failures i.last

end Issuance

/-- The lifetime is one that identity services issue credentials for. -/
def Provisioner.Timely (p : Provisioner) : Prop := 900 ≤ p.tokenSeconds ∧ p.tokenSeconds ≤ 86400

/-- The ways a credential for a bucket that is there can be handed over, by being issued and stored
as a secret: what is said, and what it comes to. -/
inductive Handover (p : Provisioner) (d : Bucket.Descriptor) :
    List (Exchange World) → Except Error Bucket.Provisioned → Prop where
  | untimely (untimely : ¬p.Timely) :
      Handover p d [] (.error (.identity (.invalidDuration p.tokenSeconds)))
  | refused (timely : p.Timely) (failures : List Identity.Error) (cause : Identity.Error)
      (given : (⟨failures, .error cause⟩ : Issuance).Given p.retry) :
      Handover p d ((⟨failures, .error cause⟩ : Issuance).said p d.bucketName)
        (.error (.identity cause))
  | issued (timely : p.Timely) (failures : List Identity.Error) (credential : TemporaryCredential)
      (given : (⟨failures, .ok credential⟩ : Issuance).Given p.retry) (random : Bytes)
      (key text : String)
      (named : key = "resourceDefinition-" ++ d.id ++ "-secret-" ++ Identifier.simple random)
      (written : credential.WrittenAs text) (stored : Except Secrets.Error Unit) :
      Handover p d ((⟨failures, .ok credential⟩ : Issuance).said p d.bucketName ++
        [⟨.random, random⟩, ⟨.storeSecret key text, stored⟩])
        ((stored.mapError Error.secret).map fun () => .ofDescriptor d key)

/-- The ways a setup through a client can go: what is said in it, and what it comes to. -/
inductive Setup (p : Provisioner) (c : Client) (d : Bucket.Descriptor) :
    List (Exchange World) → Except Error Bucket.Provisioned → Prop where
  | uncreated (failures : List ObjectStore.Error) (cause : ObjectStore.Error)
      (given : (⟨.createBucket d.bucketName, failures, .error cause⟩ : Trial).Given p.retry)
      (foreign : cause.code? ≠ some .bucketAlreadyOwnedByYou) :
      Setup p c d ((⟨.createBucket d.bucketName, failures, .error cause⟩ : Trial).said p.retry c)
        (.error (.store .createBucket d.bucketName cause))
  | created (failures : List ObjectStore.Error) (last : Except ObjectStore.Error Unit)
      (given : (⟨.createBucket d.bucketName, failures, last⟩ : Trial).Given p.retry)
      (owned : Owned last) {rest : List (Exchange World)}
      {outcome : Except Error Bucket.Provisioned} (handover : Handover p d rest outcome) :
      Setup p c d ((⟨.createBucket d.bucketName, failures, last⟩ : Trial).said p.retry c ++ rest)
        outcome

/-- The ways a request for a bucket can go: what is said, and what it comes to. -/
inductive Provided (p : Provisioner) (d : Bucket.Descriptor) (kept : Clients) :
    List (Exchange World) → Except Error Bucket.Provisioned → Prop where
  | invalid (wrong : violations d ≠ []) :
      Provided p d kept [] (.error (.validation (violations d)))
  | unserved (valid : violations d = []) {opening : List (Exchange World)}
      (cause : ObjectStore.Error)
      (obtained : Clients.Obtained kept d.endpoint opening (.error cause)) :
      Provided p d kept opening (.error (.store .resolveClient d.bucketName cause))
  | served (valid : violations d = []) {opening : List (Exchange World)} (c : Client)
      (obtained : Clients.Obtained kept d.endpoint opening (.ok c)) {rest : List (Exchange World)}
      {outcome : Except Error Bucket.Provisioned} (setup : Setup p c d rest outcome) :
      Provided p d kept (opening ++ rest) outcome

/-- The secret for what was provided is there, and is all that has changed; if nothing was provided,
the secrets are as before. -/
def Deposited (p : Provisioner) (d : Bucket.Descriptor) (said : List (Exchange World))
    (outcome : Except Error Bucket.Provisioned) (k k' : Keeper) : Prop :=
  match outcome with
  | .ok provisioned => ∃ (credential : TemporaryCredential) (random : Bytes) (text : String),
      (⟨.issueToken ⟨p.tokenSeconds, .putOnly d.bucketName⟩, .ok credential⟩ : Exchange World) ∈
          said ∧
        provisioned.secretKey =
          "resourceDefinition-" ++ d.id ++ "-secret-" ++ Identifier.simple random ∧
        credential.WrittenAs text ∧
        k'.secrets = k.secrets.insert provisioned.secretKey text
  | .error _ => k'.secrets = k.secrets

namespace Provisioner

variable {p : Provisioner} {c : Client} {bucket : String} {said : List (Exchange World)}

/-- A bucket that is created, or that could not be. -/
private theorem course_createBucket {result : Option (Except Error Unit)}
    (h : Course (p.createBucket c bucket) said result) :
    ∃ failures last, said = (⟨.createBucket bucket, failures, last⟩ : Trial).said p.retry c ∧
      (⟨.createBucket bucket, failures, last⟩ : Trial).Given p.retry ∧
      ((Owned last ∧ result = some (.ok ())) ∨
        ∃ cause, last = .error cause ∧ cause.code? ≠ some .bucketAlreadyOwnedByYou ∧
          result = some (.error (.store .createBucket bucket cause))) := by
  obtain ⟨first, rest, answer, rfl, hrun, hend⟩ :=
    (Retry.finishes_run (Dialogue.finishes_send c (.createBucket bucket))).course_bind.1 h
  obtain ⟨failures, _, rfl, hgiven, heq⟩ := course_run_send hrun
  obtain rfl := Option.some.inj heq
  cases answer with
  | ok value =>
    obtain ⟨rfl, rfl⟩ := Dialogue.course_pure.1 hend
    exact ⟨failures, .ok value, List.append_nil _, hgiven, .inl ⟨by simp [Owned], rfl⟩⟩
  | error cause =>
    simp only at hend
    split at hend
    · rename_i howned
      obtain ⟨rfl, rfl⟩ := Dialogue.course_pure.1 hend
      refine ⟨failures, .error cause, List.append_nil _, hgiven, .inl ⟨?_, rfl⟩⟩
      rintro _ ⟨⟩
      exact howned
    · rename_i hforeign
      obtain ⟨rfl, rfl⟩ := Dialogue.course_pure.1 hend
      exact ⟨failures, .error cause, List.append_nil _, hgiven, .inr ⟨cause, rfl, hforeign, rfl⟩⟩

/-- A credential is asked for only if it may live as long as it is to. -/
private theorem course_issue {result : Option (Except Identity.Error TemporaryCredential)}
    (h : Course (p.issue bucket) said result) :
    (¬p.Timely ∧ said = [] ∧ result = some (.error (.invalidDuration p.tokenSeconds))) ∨
      (p.Timely ∧ ∃ failures last, said = (⟨failures, last⟩ : Issuance).said p bucket ∧
        (⟨failures, last⟩ : Issuance).Given p.retry ∧ result = some last) := by
  rw [issue, Identity.issue] at h
  split at h
  · rename_i htimely
    exact .inr ⟨htimely, Retry.course_run_exchange Dialogue.course_question h⟩
  · rename_i huntimely
    obtain ⟨failures, final, last, rfl, rfl, hfinal, hfailures, hgiven⟩ :=
      Retry.course_run Dialogue.finishes_pure h
    obtain ⟨rfl, hlast⟩ := Dialogue.course_pure.1 hfinal
    have hnone : failures = [] := by
      refine List.eq_nil_iff_forall_not_mem.2 fun f hf => ?_
      obtain ⟨-, heq⟩ := Dialogue.course_pure.1 (hfailures f hf)
      have hretry := hgiven.retryable_of_mem _ (List.mem_map_of_mem hf)
      rw [Except.error.inj (Option.some.inj heq)] at hretry
      exact absurd hretry (by simp [Identity.Error.isRetryable])
    exact .inl ⟨huntimely, by simp [hnone, Retry.failed], hlast⟩

private theorem finishes_createBucket (p : Provisioner) (c : Client) (bucket : String) :
    (p.createBucket c bucket).Finishes := by
  intro said result h
  obtain ⟨_, _, -, -, ⟨-, rfl⟩ | ⟨_, -, -, rfl⟩⟩ := course_createBucket h
  · rfl
  · rfl

private theorem finishes_issue (p : Provisioner) (bucket : String) : (p.issue bucket).Finishes := by
  intro said result h
  obtain ⟨-, -, rfl⟩ | ⟨-, _, _, -, -, rfl⟩ := course_issue h
  · rfl
  · rfl

variable {d : Bucket.Descriptor} {kept : Clients}
  {result : Option (Except Error Bucket.Provisioned × Clients)}

/-- A credential that was issued is stored, or cannot be. -/
private theorem runs_storeSecret {key value : String} {provisioned : Bucket.Provisioned}
    (h : Task.Runs (do
      Task.attempt Error.secret (World.storeSecret key value)
      return provisioned) kept said result) :
    ∃ stored : Except Secrets.Error Unit, said = [⟨.storeSecret key value, stored⟩] ∧
      result = some ((stored.mapError Error.secret).map fun () => provisioned, kept) := by
  rcases (Task.runs_attempt_bind_of_finishes Dialogue.finishes_question).1 h with
    ⟨first, last, _, rfl, hstore, hend⟩ | ⟨e, hstore, rfl⟩
  · obtain ⟨stored, rfl, heq⟩ := Dialogue.course_question.1 hstore
    obtain ⟨rfl, rfl⟩ := Task.runs_pure.1 hend
    obtain rfl := Option.some.inj heq
    exact ⟨.ok (), rfl, rfl⟩
  · obtain ⟨stored, rfl, heq⟩ := Dialogue.course_question.1 hstore
    obtain rfl := Option.some.inj heq
    exact ⟨.error e, rfl, rfl⟩

private theorem handover_of_runs
    (h : Task.Runs (do
      let credential ← Task.attempt Error.identity (p.issue d.bucketName)
      let key := Identifier.secretKey d.id (← Task.ask World.random)
      Task.attempt Error.secret (World.storeSecret key credential.toJson.text)
      return Bucket.Provisioned.ofDescriptor d key) kept said result) :
    ∃ outcome, result = some (outcome, kept) ∧ Handover p d said outcome := by
  rcases (Task.runs_attempt_bind_of_finishes (finishes_issue p d.bucketName)).1 h with
    ⟨first, later, credential, rfl, hissue, hlater⟩ | ⟨e, hissue, rfl⟩
  · obtain ⟨-, -, heq⟩ | ⟨htimely, failures, last, rfl, hgiven, heq⟩ := course_issue hissue
    · exact absurd heq (by simp)
    · obtain rfl := Option.some.inj heq
      obtain ⟨random, rest, rfl, hrest⟩ := Task.runs_ask_bind.1 hlater
      obtain ⟨stored, rfl, rfl⟩ := runs_storeSecret hrest
      exact ⟨_, rfl, .issued htimely failures credential hgiven random _ _ rfl
        credential.writtenAs_text stored⟩
  · refine ⟨_, rfl, ?_⟩
    obtain ⟨huntimely, rfl, heq⟩ | ⟨htimely, failures, last, rfl, hgiven, heq⟩ :=
      course_issue hissue
    · rw [Except.error.inj (Option.some.inj heq)]
      exact .untimely huntimely
    · obtain rfl := Option.some.inj heq
      exact .refused htimely failures e hgiven

private theorem setup_of_runs
    (h : Task.Runs (do
      Task.attempt id (p.createBucket c d.bucketName)
      let credential ← Task.attempt Error.identity (p.issue d.bucketName)
      let key := Identifier.secretKey d.id (← Task.ask World.random)
      Task.attempt Error.secret (World.storeSecret key credential.toJson.text)
      return Bucket.Provisioned.ofDescriptor d key) kept said result) :
    ∃ outcome, result = some (outcome, kept) ∧ Setup p c d said outcome := by
  rcases (Task.runs_attempt_bind_of_finishes (finishes_createBucket p c d.bucketName)).1 h with
    ⟨first, later, _, rfl, hcreate, hlater⟩ | ⟨e, hcreate, rfl⟩
  · obtain ⟨failures, last, rfl, hgiven, ⟨howned, -⟩ | ⟨_, -, -, heq⟩⟩ :=
      course_createBucket hcreate
    · obtain ⟨outcome, rfl, hhandover⟩ := handover_of_runs hlater
      exact ⟨outcome, rfl, .created failures last hgiven howned hhandover⟩
    · exact absurd heq (by simp)
  · obtain ⟨failures, last, rfl, hgiven, ⟨-, heq⟩ | ⟨cause, rfl, hforeign, heq⟩⟩ :=
      course_createBucket hcreate
    · exact absurd heq (by simp)
    · rw [Except.error.inj (Option.some.inj heq)]
      exact ⟨_, rfl, .uncreated failures cause hgiven hforeign⟩

/-- A bucket is asked for, and nothing is if the request is not valid. -/
theorem runs_provision (h : (p.provision d).Runs kept said result) :
    ∃ outcome kept', result = some (outcome, kept') ∧ Provided p d kept said outcome := by
  rw [provision] at h
  split at h
  · rename_i hvalid
    rcases runs_client_bind h with ⟨opening, c, rest, kept', rfl, hfound, hrest⟩ |
      ⟨cause, kept', hfound, rfl⟩
    · obtain ⟨outcome, rfl, hsetup⟩ := setup_of_runs hrest
      exact ⟨outcome, kept', rfl, .served hvalid c hfound hsetup⟩
    · exact ⟨_, kept', rfl, .unserved hvalid cause hfound⟩
  · rename_i hwrong
    obtain ⟨rfl, rfl⟩ := Task.runs_throw.1 h
    exact ⟨_, kept, rfl, .invalid hwrong⟩

end Provisioner

section Consequences
variable {p : Provisioner} {c : Client} {d : Bucket.Descriptor} {kept : Clients}
  {said : List (Exchange World)} {outcome : Except Error Bucket.Provisioned} {k k' : Keeper}

private theorem Deposited.mono {all : List (Exchange World)} (h : Deposited p d said outcome k k')
    (hsaid : ∀ e ∈ said, e ∈ all) : Deposited p d all outcome k k' := by
  cases outcome with
  | error e => exact h
  | ok provisioned =>
    obtain ⟨credential, random, text, hissued, hsecret⟩ := h
    exact ⟨credential, random, text, hsaid _ hissued, hsecret⟩

private theorem Handover.deposited (h : Handover p d said outcome)
    (hk : Leads Keeper.Step k said k') : Deposited p d said outcome k k' := by
  cases h with
  | untimely untimely => exact congrArg _ (leads_nil.1 hk)
  | refused timely failures cause given =>
    exact congrArg _ (Retry.eq_of_tried hk (fun _ _ _ h => h) fun _ _ _ h => h)
  | issued timely failures credential given random key text named written stored =>
    obtain ⟨mid, hissue, hrest⟩ := leads_append.1 hk
    obtain rfl := Retry.eq_of_tried hissue (fun _ _ _ h => h) fun _ _ _ h => h
    obtain ⟨_, hrandom, hstored⟩ := leads_cons.1 hrest
    obtain rfl := hrandom
    rcases (leads_singleton.1 hstored).stored_or_kept with ⟨rfl, hsecrets⟩ | ⟨⟨e, rfl⟩, hsecrets⟩
    · refine ⟨credential, random, text, ?_, named, written, hsecrets⟩
      exact List.mem_append_left _ (List.mem_append_right _ (List.mem_singleton_self _))
    · exact hsecrets

theorem Provided.deposited (h : Provided p d kept said outcome)
    (hk : Leads Keeper.Step k said k') : Deposited p d said outcome k k' := by
  cases h with
  | invalid wrong => exact congrArg _ (leads_nil.1 hk)
  | unserved valid cause obtained =>
    exact congrArg _ (obtained.eq_of_leads hk fun _ _ h => h)
  | served valid c obtained setup =>
    obtain ⟨first, hopening, hrest⟩ := leads_append.1 hk
    obtain rfl := obtained.eq_of_leads hopening fun _ _ h => h
    cases setup with
    | uncreated failures cause given foreign =>
      exact congrArg _ (Retry.eq_of_tried hrest (fun _ _ _ h => h) fun _ _ _ h => h)
    | created failures last given owned handover =>
      obtain ⟨mid, hcreate, hhandover⟩ := leads_append.1 hrest
      obtain rfl := Retry.eq_of_tried hcreate (fun _ _ _ h => h) fun _ _ _ h => h
      exact (handover.deposited hhandover).mono fun e he => by simp [he]

section Issue
variable {request : Identity.TokenRequest} {answer : Except Identity.Error TemporaryCredential}

private theorem not_mem_obtained {endpoint : String} {found : Except ObjectStore.Error Client}
    (h : Clients.Obtained kept endpoint said found) :
    (⟨.issueToken request, answer⟩ : Exchange World) ∉ said := by
  intro he
  cases h.eq_of_mem he

private theorem not_mem_trial {t : Trial} {r : Retry} :
    (⟨.issueToken request, answer⟩ : Exchange World) ∉ t.said r c := by
  intro he
  rcases Retry.mem_tried he with ⟨time, heq⟩ | ⟨reply, heq, -⟩
  · cases heq
  · cases heq

private theorem eq_of_mem_issuance {i : Issuance} {bucket : String}
    (he : (⟨.issueToken request, answer⟩ : Exchange World) ∈ i.said p bucket) :
    request = ⟨p.tokenSeconds, .putOnly bucket⟩ ∧
      (answer = i.last ∨ ∃ cause ∈ i.failures, answer = .error cause) := by
  rcases Retry.mem_tried he with ⟨time, heq⟩ | ⟨reply, heq, hreply⟩
  · cases heq
  · cases heq
    exact ⟨rfl, hreply⟩

private theorem not_mem_storing {random : Bytes} {key value : String}
    {stored : Except Secrets.Error Unit} :
    (⟨.issueToken request, answer⟩ : Exchange World) ∉
      [⟨.random, random⟩, ⟨.storeSecret key value, stored⟩] := by
  intro he
  rcases List.mem_cons.1 he with heq | hstore
  · cases heq
  · cases List.mem_singleton.1 hstore

/-- Credentials are asked for one bucket, by a name that stands for no other one. -/
theorem Provided.issueToken (h : Provided p d kept said outcome)
    (he : (⟨.issueToken request, answer⟩ : Exchange World) ∈ said) :
    request = ⟨p.tokenSeconds, .putOnly d.bucketName⟩ ∧ p.Timely ∧ violations d = [] := by
  cases h with
  | invalid wrong => exact absurd he (by simp)
  | unserved valid cause obtained => exact absurd he (not_mem_obtained obtained)
  | served valid c obtained setup =>
    have hrest := (List.mem_append.1 he).resolve_left (not_mem_obtained obtained)
    cases setup with
    | uncreated failures cause given foreign => exact absurd hrest not_mem_trial
    | created failures last given owned handover =>
      have hhandover := (List.mem_append.1 hrest).resolve_left not_mem_trial
      cases handover with
      | untimely untimely => exact absurd hhandover (by simp)
      | refused timely failures cause given =>
        exact ⟨(eq_of_mem_issuance hhandover).1, timely, valid⟩
      | issued timely failures credential given random key text named written stored =>
        have hissue := (List.mem_append.1 hhandover).resolve_right not_mem_storing
        exact ⟨(eq_of_mem_issuance hissue).1, timely, valid⟩

/-- One credential is answered if a bucket is provided. -/
theorem Provided.exists_credential {provisioned : Bucket.Provisioned}
    (h : Provided p d kept said (.ok provisioned)) :
    ∃ random credential,
      provisioned = .ofDescriptor d (Identifier.secretKey d.id random) ∧
        ∀ request reply, (⟨.issueToken request, .ok reply⟩ : Exchange World) ∈ said ↔
          request = ⟨p.tokenSeconds, .putOnly d.bucketName⟩ ∧ reply = credential := by
  generalize houtcome : (.ok provisioned : Except Error Bucket.Provisioned) = outcome at h
  cases h with
  | invalid wrong => exact absurd houtcome (by simp)
  | unserved valid cause obtained => exact absurd houtcome (by simp)
  | served valid c obtained setup =>
    cases setup with
    | uncreated failures cause given foreign => exact absurd houtcome (by simp)
    | created failures last given owned handover =>
      cases handover with
      | untimely untimely => exact absurd houtcome (by simp)
      | refused timely failures cause given => exact absurd houtcome (by simp)
      | issued timely failures credential given random key text named written stored =>
        subst named
        refine ⟨random, credential, ?_, fun request reply => ⟨fun he => ?_, ?_⟩⟩
        · cases stored with
          | error e => cases houtcome
          | ok value => exact Except.ok.inj houtcome
        · have hrest := (List.mem_append.1 he).resolve_left (not_mem_obtained obtained)
          have hhandover := (List.mem_append.1 hrest).resolve_left not_mem_trial
          have hissue := (List.mem_append.1 hhandover).resolve_right not_mem_storing
          obtain ⟨hrequest, hlast | ⟨cause, -, herror⟩⟩ := eq_of_mem_issuance hissue
          · exact ⟨hrequest, Except.ok.inj hlast⟩
          · exact absurd herror (by simp)
        · rintro ⟨rfl, rfl⟩
          exact List.mem_append_right _ (List.mem_append_right _ (List.mem_append_left _
            (List.mem_append_right _ (List.mem_singleton_self _))))

end Issue

end Consequences

/-- A setup keeps to its order, whatever is answered at any time. What credentials are asked for is
to put objects into the bucket, and nothing but the last one is ever kept. -/
theorem Provisioner.converse_provision (p : Provisioner) (d : Bucket.Descriptor) (kept : Clients)
    (answer : List (Exchange World) → (q : World.Question) → q.Answer) :
    let (said, result) := ((p.provision d).run kept).converse answer []
    ∃ outcome kept', result = some (outcome, kept') ∧ Provided p d kept said outcome ∧
      (∀ request reply, (⟨.issueToken request, reply⟩ : Exchange World) ∈ said →
        (900 ≤ request.seconds ∧ request.seconds ≤ 86400) ∧
          request.policy.statements = [⟨"Allow", ["obs:object:PutObject"],
            ["obs:*:*:object:" ++ d.bucketName ++ "/*"]⟩] ∧
          ∀ ch ∈ d.bucketName.toList,
            ('a' ≤ ch ∧ ch ≤ 'z') ∨ ('0' ≤ ch ∧ ch ≤ '9') ∨ ch = '-' ∨ ch = '.') ∧
      ∀ k k', Leads Keeper.Step k said k' → Deposited p d said outcome k k' := by
  have h : Task.Runs (p.provision d) kept _ _ :=
    Dialogue.course_converse answer ((p.provision d).run kept) []
  simp only
  generalize ((p.provision d).run kept).converse answer [] = conversation at h ⊢
  obtain ⟨said, result⟩ := conversation
  obtain ⟨outcome, kept', rfl, hprovided⟩ := runs_provision h
  refine ⟨outcome, kept', rfl, hprovided, ?_, fun k k' hk => hprovided.deposited hk⟩
  intro request reply he
  obtain ⟨rfl, htimely, hvalid⟩ := hprovided.issueToken he
  exact ⟨htimely, rfl, fun ch hch => Bucket.mem_of_checkName (checkName_of_violations hvalid) hch⟩

end Provision

end BucketTransfer
