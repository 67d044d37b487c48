import BucketTransfer.Identity.Issuer
import BucketTransfer.Proofs.ObjectStore.Exchanges
import BucketTransfer.Proofs.Provision.Setup

/-!
# Setups with unsteady services

A service may fail in passing, and it may do so after it has done what it was asked for, so that
only the answer is lost. A request that is made again then meets its own effect. A setup comes
through if no service fails as often in a row as there are attempts.
-/
namespace BucketTransfer

section Unsteady
variable {S ε α : Type}

/-- How a call to a service may go. States are those of the service with the number of calls that
failed in passing since one was answered. -/
inductive Unsteady (limit : Nat) (retryable : ε → Bool) (serve : S → Except ε α → S → Prop) :
    S × Nat → Except ε α → S × Nat → Prop where
  | answered {s s' : S} {n : Nat} {answer : Except ε α} (served : serve s answer s') :
      Unsteady limit retryable serve (s, n) answer (s', 0)
  /-- The call did not come through. -/
  | unheard (s : S) {n : Nat} {e : ε} (passes : retryable e) (few : n + 1 < limit) :
      Unsteady limit retryable serve (s, n) (.error e) (s, n + 1)
  /-- The answer did not come through. -/
  | unanswered {s s' : S} {n : Nat} {answer : Except ε α} {e : ε} (served : serve s answer s')
      (passes : retryable e) (few : n + 1 < limit) :
      Unsteady limit retryable serve (s, n) (.error e) (s', n + 1)

end Unsteady

/-- What an exchange does to an unsteady store. -/
def ObjectStore.Memory.Unsteadily (limit : Nat) (s : Memory × Nat) (e : Exchange World)
    (s' : Memory × Nat) : Prop :=
  match e with
  | ⟨.request _ r, answer⟩ =>
    Unsteady limit (·.isRetryable) (fun m answer m' => m.answer r = (answer, m')) s answer s'
  | _ => s' = s

theorem ObjectStore.Memory.Unsteadily.eq_of_aside {limit : Nat} {s s' : Memory × Nat}
    {e : Exchange World} (h : Unsteadily limit s e s') (he : ∀ c r, e.question ≠ .request c r) :
    s' = s := by
  obtain ⟨q, answer⟩ := e
  cases q with
  | request c r => exact absurd rfl (he c r)
  | _ => exact h

/-- What an exchange does to an unsteady identity service, which may issue another credential each
time. -/
def Identity.Issuer.Unsteadily (limit : Nat) (s : Issuer × Nat) (e : Exchange World)
    (s' : Issuer × Nat) : Prop :=
  match e with
  | ⟨.issueToken r, answer⟩ =>
    Unsteady limit (·.isRetryable)
      (fun i answer i' => ∃ credential, ({ i with credential } : Issuer).answer r = (answer, i'))
      s answer s'
  | _ => s' = s

namespace Provision
open ObjectStore (Memory)
open Identity (Issuer)
open Secrets (Keeper)

namespace Retry
variable {S ε α : Type} {r : Retry} {retryable : ε → Bool} {serve : S → Except ε α → S → Prop}
  {exchange : Except ε α → Exchange World} {step : S × Nat → Exchange World → S × Nat → Prop}
  {P : S → Prop} {s : S} {n : Nat} {t : S × Nat} {failures : List ε} {last : Except ε α}

/-- Failures that may pass are none that the service answers with. -/
private theorem counted_of_failed (hwait : ∀ s time s', step s (waiting time) s' → s' = s)
    (hexchange : ∀ s answer s', step s (exchange answer) s' →
      Unsteady r.limit retryable serve s answer s')
    (hserve : ∀ s answer s', P s → serve s answer s' →
      P s' ∧ ∀ e, answer = .error e → ¬retryable e)
    (hfailures : ∀ e ∈ failures, retryable e) (first : Nat) (hs : P s)
    (h : Leads step (s, n) (r.failed first (failures.map fun e => [exchange (.error e)])) t) :
    P t.1 ∧ t.2 = n + failures.length := by
  induction failures generalizing first s n with
  | nil =>
    obtain rfl := leads_nil.1 h
    exact ⟨hs, rfl⟩
  | cons e rest ih =>
    obtain ⟨he, hrest⟩ := List.forall_mem_cons.1 hfailures
    rw [List.map_cons, failed_cons] at h
    obtain ⟨mid, hfirst, hlater⟩ := leads_cons.1 h
    obtain ⟨_, hpause, hothers⟩ := leads_cons.1 hlater
    obtain rfl := hwait _ _ _ hpause
    have hn : ∀ n, n + 1 + rest.length = n + (e :: rest).length := by
      intro n
      rw [List.length_cons, Nat.add_assoc, Nat.add_comm 1]
    cases hexchange _ _ _ hfirst with
    | answered served => exact absurd he ((hserve _ _ _ hs served).2 e rfl)
    | unheard s passes few => exact hn n ▸ ih hrest (first + 1) hs hothers
    | unanswered served passes few =>
      exact hn n ▸ ih hrest (first + 1) (hserve _ _ _ hs served).1 hothers

/-- The last answer to a step that is tried again is one of the service itself, if that does not
fail in passing as often in a row as there are attempts. -/
theorem served_of_tried (hwait : ∀ s time s', step s (waiting time) s' → s' = s)
    (hexchange : ∀ s answer s', step s (exchange answer) s' →
      Unsteady r.limit retryable serve s answer s')
    (hserve : ∀ s answer s', P s → serve s answer s' →
      P s' ∧ ∀ e, answer = .error e → ¬retryable e)
    (hgiven : r.Given retryable failures last) (hs : P s)
    (h : Leads step (s, 0) (r.tried exchange failures last) t) :
    ∃ mid, P mid ∧ serve mid last t.1 := by
  obtain ⟨⟨mid, n⟩, hfailed, hlast⟩ := leads_append.1 h
  obtain ⟨hmid, hn⟩ :=
    counted_of_failed hwait hexchange hserve hgiven.retryable_of_mem 0 hs hfailed
  have hfew : ∀ e, last = .error e → retryable e → ¬n + 1 < r.limit := by
    intro e he hretry
    have hexhausted := hgiven.exhausted e he hretry
    simp only at hn
    omega
  cases hexchange _ _ _ (leads_singleton.1 hlast) with
  | answered served => exact ⟨mid, hmid, served⟩
  | unheard s passes few => exact absurd few (hfew _ rfl passes)
  | unanswered served passes few => exact absurd few (hfew _ rfl passes)

end Retry

/-- New clients can be made and secrets be stored. -/
def Heeded (e : Exchange World) : Prop :=
  match e with
  | ⟨.connect .., answer⟩ => ∃ c, answer = .ok c
  | ⟨.storeSecret .., answer⟩ => answer = .ok ()
  | _ => True

/-- What is said with an object store and an identity service that fail in passing only: where it
leads these and a keeper of secrets. -/
structure Weathered (limit : Nat) (said : List (Exchange World)) (m m' : Memory) (i i' : Issuer)
    (k k' : Keeper) : Prop where
  store : ∃ n, Leads (Memory.Unsteadily limit) (m, 0) said (m', n)
  issuer : ∃ n, Leads (Issuer.Unsteadily limit) (i, 0) said (i', n)
  keeper : Leads Keeper.Step k said k'
  heeded : ∀ e ∈ said, Heeded e

variable {p : Provisioner} {c : Client} {d : Bucket.Descriptor} {kept : Clients}
  {said : List (Exchange World)} {outcome : Except Error Bucket.Provisioned} {m : Memory}
  {i : Issuer}

private theorem Handover.question_ne_request (h : Handover p d said outcome) {e : Exchange World}
    (he : e ∈ said) (c : Client) (r : ObjectStore.Request) : e.question ≠ .request c r := by
  have hissuance : ∀ j : Issuance, e ∈ j.said p d.bucketName → e.question ≠ .request c r := by
    intro j hj
    rcases Retry.mem_tried hj with ⟨time, rfl⟩ | ⟨answer, rfl, -⟩
    · exact fun heq => nomatch heq
    · exact fun heq => nomatch heq
  cases h with
  | untimely untimely => exact absurd he List.not_mem_nil
  | refused timely failures cause given => exact hissuance _ he
  | issued timely failures credential given random key text named written stored =>
    rcases List.mem_append.1 he with hissue | hrest
    · exact hissuance _ hissue
    · rcases List.mem_cons.1 hrest with rfl | hstore
      · exact fun heq => nomatch heq
      · obtain rfl := List.mem_singleton.1 hstore
        exact fun heq => nomatch heq

/-- A store on its way to one that has a bucket: it is as it was, or the bucket is there. -/
structure Halfway (m : Memory) (bucket : String) (n : Memory) : Prop where
  unhindered : n.Unhindered .createBucket
  buckets : n.buckets = m.buckets ∨ n.buckets = m.bucketsWith bucket

private theorem Halfway.bucketsWith {bucket : String} {n : Memory} (h : Halfway m bucket n) :
    n.bucketsWith bucket = m.bucketsWith bucket := by
  rcases h.buckets with hsame | hmade
  · rw [Memory.bucketsWith, hsame, Memory.bucketsWith]
  · rw [Memory.bucketsWith, hmade, Memory.get?_bucketsWith, if_pos rfl, Option.getD_some,
      Memory.bucketsWith, KeyMap.insert_insert]

private theorem Halfway.served {bucket : String} {n n' : Memory}
    {answer : Except ObjectStore.Error Unit} (h : Halfway m bucket n)
    (hanswer : n.answer (.createBucket bucket) = (answer, n')) :
    n'.buckets = m.bucketsWith bucket ∧ Halfway m bucket n' ∧
      ∀ e, answer = .error e → e.code? = some .bucketAlreadyOwnedByYou ∧ ¬e.isRetryable := by
  have hcreate := Memory.createBucket_of_unhindered h.unhindered bucket
  have hunhindered := Memory.unhindered_answer h.unhindered (.createBucket bucket)
  rw [hanswer] at hcreate hunhindered
  obtain ⟨hbuckets, herror⟩ := hcreate
  rw [h.bucketsWith] at hbuckets
  exact ⟨hbuckets, ⟨hunhindered, .inr hbuckets⟩, herror⟩

/-- A bucket that is asked for of an unsteady store is there in the end, with what it held. -/
private theorem created_of_unsteady {failures : List ObjectStore.Error}
    {last : Except ObjectStore.Error Unit} {bucket : String} {t : Memory × Nat}
    (hm : m.Unhindered .createBucket)
    (hgiven : (⟨.createBucket bucket, failures, last⟩ : Trial).Given p.retry)
    (h : Leads (Memory.Unsteadily p.retry.limit) (m, 0)
      ((⟨.createBucket bucket, failures, last⟩ : Trial).said p.retry c) t) :
    Owned last ∧ t.1.buckets = m.bucketsWith bucket := by
  obtain ⟨mid, hmid, hlast⟩ := Retry.served_of_tried (P := Halfway m bucket) (fun _ _ _ h => h)
    (fun _ _ _ h => h)
    (fun n answer n' hn hanswer =>
      ⟨(hn.served hanswer).2.1, fun e he => ((hn.served hanswer).2.2 e he).2⟩)
    hgiven ⟨hm, .inl rfl⟩ h
  obtain ⟨hbuckets, -, herror⟩ := hmid.served hlast
  exact ⟨fun e he => (herror e he).1, hbuckets⟩

/-- A credential that is asked for of an unsteady service is issued in the end. -/
private theorem issued_of_unsteady {failures : List Identity.Error}
    {last : Except Identity.Error TemporaryCredential} {bucket : String} {t : Issuer × Nat}
    (hi : i.failures = []) (hgiven : (⟨failures, last⟩ : Issuance).Given p.retry)
    (h : Leads (Issuer.Unsteadily p.retry.limit) (i, 0)
      ((⟨failures, last⟩ : Issuance).said p bucket) t) :
    ∃ credential, last = .ok credential := by
  have hserve : ∀ (n : Issuer) (answer : Except Identity.Error TemporaryCredential) (n' : Issuer),
      n.failures = [] →
      (∃ credential, ({ n with credential } : Issuer).answer ⟨p.tokenSeconds, .putOnly bucket⟩ =
        (answer, n')) →
      n'.failures = [] ∧ ∃ credential, answer = .ok credential := by
    rintro n answer n' hn ⟨credential, hanswer⟩
    simp only [Issuer.answer, hn] at hanswer
    obtain ⟨rfl, rfl⟩ := Prod.mk.inj hanswer
    exact ⟨rfl, credential, rfl⟩
  obtain ⟨mid, hmid, hlast⟩ := Retry.served_of_tried (P := fun n : Issuer => n.failures = [])
    (fun _ _ _ h => h) (fun _ _ _ h => h)
    (fun n answer n' hn hanswer => by
      obtain ⟨hn', credential, rfl⟩ := hserve n answer n' hn hanswer
      exact ⟨hn', by simp⟩) hgiven hi h
  exact (hserve mid last t.1 hmid hlast).2

private theorem Handover.exists_ok {t : Issuer × Nat} (h : Handover p d said outcome)
    (htimely : p.Timely) (hi : i.failures = [])
    (hissuer : Leads (Issuer.Unsteadily p.retry.limit) (i, 0) said t)
    (hheeded : ∀ e ∈ said, Heeded e) : ∃ provisioned, outcome = .ok provisioned := by
  cases h with
  | untimely untimely => exact absurd htimely untimely
  | refused timely failures cause given =>
    obtain ⟨credential, hcredential⟩ := issued_of_unsteady hi given hissuer
    exact absurd hcredential (by simp)
  | issued timely failures credential given random key text named written stored =>
    obtain rfl : stored = .ok () := hheeded _
      (List.mem_append_right _ (List.mem_cons_of_mem _ (List.mem_singleton_self _)))
    exact ⟨_, rfl⟩

/-- With services that fail in passing only, a setup comes through. -/
private theorem Setup.of_unsteady {store : Memory × Nat} {issuer : Issuer × Nat}
    (h : Setup p c d said outcome) (htimely : p.Timely) (hm : m.Unhindered .createBucket)
    (hi : i.failures = []) (hstore : Leads (Memory.Unsteadily p.retry.limit) (m, 0) said store)
    (hissuer : Leads (Issuer.Unsteadily p.retry.limit) (i, 0) said issuer)
    (hheeded : ∀ e ∈ said, Heeded e) :
    store.1.buckets = m.bucketsWith d.bucketName ∧ ∃ provisioned, outcome = .ok provisioned := by
  cases h with
  | uncreated failures cause given foreign =>
    exact absurd ((created_of_unsteady hm given hstore).1 cause rfl) foreign
  | created failures last given owned handover =>
    obtain ⟨mid, hcreate, hrest⟩ := leads_append.1 hstore
    obtain ⟨first, hidle, hissue⟩ := leads_append.1 hissuer
    obtain rfl := hrest.eq_of_idle fun e he s s' hstep =>
      Memory.Unsteadily.eq_of_aside hstep (handover.question_ne_request he)
    obtain rfl := Retry.eq_of_tried hidle (fun _ _ _ h => h) fun _ _ _ h => h
    exact ⟨(created_of_unsteady hm given hcreate).2, handover.exists_ok htimely hi hissue
      fun e he => hheeded e (List.mem_append_right _ he)⟩

private theorem Provided.of_weathered {m' : Memory} {i' : Issuer} {k k' : Keeper}
    (h : Provided p d kept said outcome) (hvalid : violations d = []) (htimely : p.Timely)
    (hm : m.Unhindered .createBucket) (hi : i.failures = [])
    (hw : Weathered p.retry.limit said m m' i i' k k') :
    m'.buckets = m.bucketsWith d.bucketName ∧ ∃ provisioned, outcome = .ok provisioned := by
  cases h with
  | invalid wrong => exact absurd hvalid wrong
  | unserved valid cause obtained =>
    cases obtained with
    | made absent answer =>
      obtain ⟨c, hc⟩ := hw.heeded _ (List.mem_singleton_self _)
      exact absurd hc (by simp)
  | served valid c obtained setup =>
    obtain ⟨n, hstore⟩ := hw.store
    obtain ⟨n', hissuer⟩ := hw.issuer
    obtain ⟨mid, hopening, hrest⟩ := leads_append.1 hstore
    obtain ⟨first, hidle, hissue⟩ := leads_append.1 hissuer
    obtain rfl := obtained.eq_of_leads hopening fun _ _ h => h
    obtain rfl := obtained.eq_of_leads hidle fun _ _ h => h
    exact setup.of_unsteady htimely hm hi hrest hissue
      fun e he => hw.heeded e (List.mem_append_right _ he)

/-- A bucket is provided if no service fails in passing as often in a row as there are attempts,
whether or not it had done by then what it was asked for. The bucket is there with what it held, the
others are as they were, and the one secret that is new is the credential that was answered. -/
theorem Provisioner.converse_provision_of_weathered (p : Provisioner) (d : Bucket.Descriptor)
    (kept : Clients) (answer : List (Exchange World) → (q : World.Question) → q.Answer)
    {m m' : Memory} {i i' : Issuer} {k k' : Keeper} (hvalid : violations d = [])
    (htimely : 900 ≤ p.tokenSeconds ∧ p.tokenSeconds ≤ 86400)
    (hm : m.Unhindered .createBucket) (hi : i.failures = [])
    (hw : Weathered p.retry.limit (((p.provision d).run kept).converse answer []).1
      m m' i i' k k') :
    let (said, result) := ((p.provision d).run kept).converse answer []
    ∃ random credential kept',
      let provisioned := Bucket.Provisioned.ofDescriptor d (Identifier.secretKey d.id random)
      result = some (.ok provisioned, kept') ∧
        m'.buckets.get? d.bucketName = some ((m.buckets.get? d.bucketName).getD ∅) ∧
        (∀ b, b ≠ d.bucketName → m'.buckets.get? b = m.buckets.get? b) ∧
        (∀ request reply, (⟨.issueToken request, .ok reply⟩ : Exchange World) ∈ said ↔
          request = ⟨p.tokenSeconds, .putOnly d.bucketName⟩ ∧ reply = credential) ∧
        k'.secrets = k.secrets.insert provisioned.secretKey credential.toJson.text ∧
        (k.secrets.get? provisioned.secretKey = none → k'.secrets.size = k.secrets.size + 1) := by
  have h : Task.Runs (p.provision d) kept _ _ :=
    Dialogue.course_converse answer ((p.provision d).run kept) []
  simp only
  generalize ((p.provision d).run kept).converse answer [] = conversation at h hw ⊢
  obtain ⟨said, result⟩ := conversation
  obtain ⟨_, kept', rfl, hprovided⟩ := runs_provision h
  obtain ⟨hbuckets, _, rfl⟩ := hprovided.of_weathered hvalid htimely hm hi hw
  obtain ⟨random, credential, rfl, hcredential⟩ := hprovided.exists_credential
  obtain ⟨reply, -, text, hreply, -, hwritten, hsecrets⟩ := hprovided.deposited hw.keeper
  obtain ⟨-, rfl⟩ := (hcredential _ reply).1 hreply
  obtain rfl : text = reply.toJson.text := hwritten.text_eq
  refine ⟨random, reply, kept', rfl, ?_, fun b hb => ?_, hcredential, hsecrets, fun hfresh => ?_⟩
  · rw [hbuckets, Memory.get?_bucketsWith, if_pos rfl]
  · rw [hbuckets, Memory.get?_bucketsWith, if_neg hb]
  · rw [hsecrets, KeyMap.size_insert hfresh]

/-- Services that lose the first two answers about a bucket and the first one about a credential. -/
private def losing (credential : TemporaryCredential) (past : List (Exchange World)) :
    (q : World.Question) → q.Answer
  | .request _ _ =>
    if past.length < 5 then .error (.transport "lost")
    else .error (.ofCode 409 "BucketAlreadyOwnedByYou" "bucket bucket-1 already exists")
  | .connect endpoint _ => .ok ⟨0, endpoint⟩
  | .issueToken _ => if past.length < 8 then .error (.transport "lost") else .ok credential
  | .resolveSecret _ => .ok none
  | .storeSecret _ _ => .ok ()
  | .deleteSecret _ => .ok false
  | .file (.inspect _) => .error .absent
  | .file (.read _) => .error .absent
  | .file (.write _ _) => .error .absent
  | .file (.createDirectories _) => .error .absent
  | .file (.rename _ _) => .error .absent
  | .pause _ => ()
  | .now => 0
  | .random => List.replicate 16 7

/-- A bucket is made although that is not heard of, and a credential is issued twice. -/
theorem Provisioner.converse_provision_of_losing :
    let p : Provisioner := ⟨.every 3 10, 900, true⟩
    let d : Bucket.Descriptor := ⟨"r1", "t1", "bucket-1", "memory://obs", ""⟩
    let m := (Memory.withPages "memory://obs" 10).seed "other" [("k", [1])]
    let credential : TemporaryCredential := ⟨"ak", "sk", "token", 1⟩
    let said := (((p.provision d).run ∅).converse (losing credential) []).1
    ∃ m' i' k' random, Weathered p.retry.limit said m m' {} i' (.memory ∅) k' ∧
      m'.buckets.get? "bucket-1" = some ∅ ∧ m'.buckets.get? "other" = m.buckets.get? "other" ∧
      k'.secrets =
        (∅ : Secrets).insert (Identifier.secretKey "r1" random) credential.toJson.text := by
  intro p d m credential said
  let create : ObjectStore.Request := .createBucket "bucket-1"
  let owned : ObjectStore.Error :=
    .ofCode 409 "BucketAlreadyOwnedByYou" "bucket bucket-1 already exists"
  let token : Identity.TokenRequest := ⟨900, .putOnly "bucket-1"⟩
  let c : Client := ⟨0, "memory://obs"⟩
  let key := Identifier.secretKey "r1" (List.replicate 16 7)
  have hvalid : violations d = [] := by decide +kernel
  have hsaid : said = [⟨.connect "memory://obs" none, .ok c⟩,
      c.exchange create (.error (.transport "lost")), Retry.waiting 10,
      c.exchange create (.error (.transport "lost")), Retry.waiting 10,
      c.exchange create (.error owned), ⟨.issueToken token, .error (.transport "lost")⟩,
      Retry.waiting 10, ⟨.issueToken token, .ok credential⟩, ⟨.random, List.replicate 16 7⟩,
      ⟨.storeSecret key credential.toJson.text, .ok ()⟩] := by
    simp only [said, provision, hvalid]
    rfl
  have hunhindered : ∀ operation, m.Unhindered operation := by
    simp [m, Memory.Unhindered, Memory.seed, Memory.withPages]
  let after (n : Memory) : Memory := (n.answer create).2
  have howned : (after m).answer create = (.error owned, after (after m)) := by
    have hcontains : (after m).buckets.contains "bucket-1" = true := by decide +kernel
    have hcreate := Memory.unhindered_answer (hunhindered .createBucket) create
    refine Prod.ext ?_ rfl
    rw [Memory.answer_of_unhindered hcreate, Memory.effect, if_pos hcontains]
    rfl
  let asked : Issuer := (Issuer.answer { credential } token).2
  let secrets := (∅ : Secrets).insert key credential.toJson.text
  have hw : Weathered p.retry.limit said m (after (after m)) {} (asked.answer token).2
      (.memory ∅) (.memory secrets) := by
    rw [hsaid]
    constructor
    case store =>
      exact ⟨0, .cons rfl <| .cons (.unanswered (Prod.ext rfl rfl) rfl (by decide)) <| .cons rfl <|
        .cons (.unheard _ rfl (by decide)) <| .cons rfl <| .cons (.answered howned) <| .cons rfl <|
        .cons rfl <| .cons rfl <| .cons rfl <| .cons rfl <| .nil _⟩
    case issuer =>
      exact ⟨0, .cons rfl <| .cons rfl <| .cons rfl <| .cons rfl <| .cons rfl <| .cons rfl <|
        .cons (.unanswered ⟨credential, rfl⟩ rfl (by decide)) <| .cons rfl <|
        .cons (.answered ⟨credential, rfl⟩) <| .cons rfl <| .cons rfl <| .nil _⟩
    case keeper =>
      exact .cons rfl <| .cons rfl <| .cons rfl <| .cons rfl <| .cons rfl <| .cons rfl <|
        .cons rfl <| .cons rfl <| .cons rfl <| .cons rfl <| .cons (.memory ∅) <| .nil _
    case heeded =>
      simp only [List.forall_mem_cons]
      exact ⟨⟨c, rfl⟩, trivial, trivial, trivial, trivial, trivial, trivial, trivial, trivial,
        trivial, rfl, fun _ he => absurd he List.not_mem_nil⟩
  obtain ⟨random, reply, kept', hresult, hbucket, hothers, hreply, hsecrets, -⟩ :=
    converse_provision_of_weathered p d ∅ (losing credential) hvalid (by decide) (hunhindered _)
      rfl hw
  have hissued : (⟨.issueToken token, .ok credential⟩ : Exchange World) ∈ said := by simp [hsaid]
  have hcredential : credential = reply := ((hreply token credential).1 hissued).2
  refine ⟨_, _, _, random, hw, ?_, hothers "other" (by decide), hcredential ▸ hsecrets⟩
  exact hbucket.trans (by decide +kernel)

end Provision

end BucketTransfer
