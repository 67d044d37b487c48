import BucketTransfer.Proofs.Bucket.Resource
import BucketTransfer.Proofs.Provision.Setup
import BucketTransfer.Proofs.Transfer.Privilege

/-!
# The use of a provided bucket

What was provided can be used: the address names the bucket, and as long as the secret is there and
the credential in it has not expired, a sink for the address uploads with this credential.
-/
namespace BucketTransfer.Provision
open Dialogue (Course)
open Secrets (Keeper)
open Transfer (sinkFor Sink Admission Furnished)

/-- A sink for an address can be had at any time at which a credential has not expired, if clients
can be made with credentials of their own. It uploads into the bucket of a descriptor, with a client
that was asked for with this credential. -/
def Opens (d : Bucket.Descriptor) (a : DataAddress) (credential : TemporaryCredential)
    (k : Keeper) : Prop :=
  ∀ chunkSize kept said result k', (sinkFor chunkSize a).Runs kept said result →
    Leads Keeper.Step k said k' →
    (∀ time, (⟨.now, time⟩ : Exchange World) ∈ said → credential.isExpiredAt time = false) →
    (∀ credentials answer, (⟨.connect d.endpoint (some credentials), answer⟩ : Exchange World) ∈
      said → ∃ client, answer = .ok client) →
    ∃ sink kept', result = some (.ok sink, kept') ∧
      (⟨.connect d.endpoint (some ⟨credential.accessKey, credential.secretKey,
        some credential.securityToken⟩), .ok sink.client⟩ : Exchange World) ∈ said ∧
      sink.bucket = d.bucketName ∧ sink.keyPrefix = d.keyPrefix

theorem endpoint_ne_of_violations {d : Bucket.Descriptor} (h : violations d = []) :
    d.endpoint ≠ "" := by
  simp only [violations, List.append_eq_nil_iff] at h
  obtain ⟨⟨-, hendpoint⟩, -⟩ := h
  intro heq
  have hblank : (Text.trim "").isEmpty = true := by decide +kernel
  rw [heq, if_pos hblank] at hendpoint
  exact absurd hendpoint (by simp)

theorem secretKey_ne (resource : String) (random : Bytes) :
    Identifier.secretKey resource random ≠ "" := by
  have hne : ∀ s digits : String, "resourceDefinition-" ++ s ++ "-secret-" ++ digits ≠ "" := by
    intro s digits h
    rw [String.append_eq_empty_iff, String.append_eq_empty_iff, String.append_eq_empty_iff] at h
    exact absurd h.1.1.1 (by decide)
  exact hne resource _

theorem located_of_violations {d : Bucket.Descriptor} (h : violations d = []) (secretKey : String) :
    Transfer.located (Bucket.Provisioned.ofDescriptor d secretKey).address =
      .ok (d.bucketName, d.endpoint) := by
  have hname := checkName_of_violations h
  have hendpoint := endpoint_ne_of_violations h
  rw [Transfer.located, Bucket.Provisioned.violations_address hname hendpoint,
    Bucket.Provisioned.bucketName_address hname, Bucket.Provisioned.endpoint_address hendpoint]

/-- A credential that is read back and has not expired is turned into a client. -/
private theorem made_of_admission {endpoint text : String} {credential : TemporaryCredential}
    {asked said : List (Exchange World)} {outcome : Except Transfer.Error Client}
    (h : Admission endpoint text asked outcome) (hasked : ∀ e ∈ asked, e ∈ said)
    (hread : TemporaryCredential.ofText text = .ok credential)
    (htime : ∀ time, (⟨.now, time⟩ : Exchange World) ∈ said → credential.isExpiredAt time = false)
    (hmade : ∀ credentials answer,
      (⟨.connect endpoint (some credentials), answer⟩ : Exchange World) ∈ said →
        ∃ client, answer = .ok client) :
    ∃ client, outcome = .ok client ∧
      (⟨.connect endpoint (some credential.toCredentials), .ok client⟩ : Exchange World) ∈
        said := by
  cases h with
  | unreadable fault bad => exact absurd (hread.symm.trans bad) (by simp)
  | expired other time read past =>
    obtain rfl := Except.ok.inj (hread.symm.trans read)
    have hvalid := htime time (hasked _ List.mem_cons_self)
    exact absurd past (by simp [hvalid])
  | made other time read valid answer =>
    obtain rfl := Except.ok.inj (hread.symm.trans read)
    have hconnect := hasked _ (List.mem_cons_of_mem _ (List.mem_singleton_self _))
    obtain ⟨client, rfl⟩ := hmade _ _ hconnect
    exact ⟨client, rfl, hconnect⟩

/-- The address of a bucket that could be provided opens a sink where the secret is kept. -/
private theorem opens_of_kept {d : Bucket.Descriptor} {secretKey text : String} {k : Keeper}
    {credential : TemporaryCredential} (hvalid : violations d = []) (hkey : secretKey ≠ "")
    (hread : TemporaryCredential.ofText text = .ok credential)
    (hthere : k.secrets.get? secretKey = some text) :
    Opens d (Bucket.Provisioned.ofDescriptor d secretKey).address credential k := by
  intro chunkSize kept said result k' h hk htime hmade
  have hlocated := located_of_violations hvalid secretKey
  rcases Transfer.runs_sinkFor h with ⟨e, herror, -, -⟩ | ⟨bucket, endpoint, hplace, hrest⟩
  · exact absurd (hlocated.symm.trans herror) (by simp)
  · obtain ⟨rfl, rfl⟩ : d.bucketName = bucket ∧ d.endpoint = endpoint := by
      simpa using hlocated.symm.trans hplace
    obtain ⟨stored, rest, rfl, hstored⟩ :=
      Transfer.furnished_of_runs (Bucket.Provisioned.keyName_address hkey) hrest
    obtain ⟨_, ⟨rfl, rfl⟩, -⟩ := leads_cons.1 hk
    obtain ⟨outcome, kept', rfl, hfurnished⟩ := hstored _ (congrArg Except.ok hthere)
    cases hfurnished with
    | refused rest e admission =>
      obtain ⟨client, herror, -⟩ :=
        made_of_admission admission (fun _ he => List.mem_cons_of_mem _ he) hread htime hmade
      exact absurd herror (by simp)
    | made asked opening client admission found obtained =>
      obtain ⟨_, heq, hconnect⟩ := made_of_admission admission
        (fun _ he => List.mem_cons_of_mem _ (List.mem_append_left opening he)) hread htime hmade
      obtain rfl := Except.ok.inj heq
      exact ⟨_, kept', rfl, hconnect, rfl, Bucket.Provisioned.keyPrefix_address⟩

/-- What is provided can be used. There is nothing wrong with the address, and it opens sinks with
the credential that was issued as long as the secret is neither replaced nor taken away. -/
theorem opens_of_provided {p : Provisioner} {d : Bucket.Descriptor} {kept kept' : Clients}
    {said : List (Exchange World)} {provisioned : Bucket.Provisioned} {k k' : Keeper}
    (h : (p.provision d).Runs kept said (some (.ok provisioned, kept')))
    (hk : Leads Keeper.Step k said k')
    (hissued : ∀ request credential,
      (⟨.issueToken request, .ok credential⟩ : Exchange World) ∈ said →
        -(Text.maxI64 : Int) - 1 ≤ credential.expiresAt ∧ credential.expiresAt ≤ Text.maxI64) :
    provisioned.address.violations = [] ∧ ∃ credential,
      (∀ request reply, (⟨.issueToken request, .ok reply⟩ : Exchange World) ∈ said ↔
        request = ⟨p.tokenSeconds, .putOnly d.bucketName⟩ ∧ reply = credential) ∧
      ∀ later k'', Leads Keeper.Step k' later k'' →
        (∀ e ∈ later, ¬Keeper.Replaces provisioned.secretKey e) →
          Opens d provisioned.address credential k'' := by
  obtain ⟨outcome, _, heq, hprovided⟩ := Provisioner.runs_provision h
  obtain ⟨rfl, rfl⟩ := Prod.mk.inj (Option.some.inj heq)
  obtain ⟨random, _, rfl, honly⟩ := hprovided.exists_credential
  obtain ⟨credential, -, text, hreply, -, hwritten, hsecrets⟩ := hprovided.deposited hk
  obtain ⟨-, rfl⟩ := (honly _ _).1 hreply
  obtain ⟨-, -, hvalid⟩ := hprovided.issueToken hreply
  obtain ⟨hleast, hgreatest⟩ := hissued _ _ hreply
  have hread := hwritten.read hleast hgreatest
  refine ⟨Bucket.Provisioned.violations_address (checkName_of_violations hvalid)
    (endpoint_ne_of_violations hvalid), credential, honly, fun later k'' hlater hkept => ?_⟩
  have hthere : k'.secrets.get? (Identifier.secretKey d.id random) = some text := by
    rw [hsecrets]
    exact KeyMap.get?_insert_self
  exact opens_of_kept hvalid (secretKey_ne d.id random) hread
    (Keeper.get?_of_leads hthere hlater hkept)

/-- A credential that is stored and has not expired opens a sink, which falls back on the client
that is kept. -/
private theorem runs_of_stored {a : DataAddress} {bucket endpoint key text : String}
    {credential : TemporaryCredential} {time : Int} {connector : Client} {kept : Clients}
    (hplace : Transfer.located a = .ok (bucket, endpoint)) (hname : a.keyName = some key)
    (hread : TemporaryCredential.ofText text = .ok credential)
    (htime : credential.isExpiredAt time = false) (hkept : kept.get? endpoint = some connector)
    (chunkSize : Nat) (own : Client) :
    (sinkFor chunkSize a).Runs kept [⟨.resolveSecret key, .ok (some text)⟩, ⟨.now, time⟩,
      ⟨.connect endpoint (some credential.toCredentials), .ok own⟩]
      (some (.ok { Sink.ofChunks own bucket a.keyPrefix chunkSize with
        abortClient := some connector }, kept)) := by
  have hlocated : Task.Runs (ExceptT.mk (pure (Transfer.located a))) kept []
      (some (.ok (bucket, endpoint), kept)) := by
    rw [hplace]
    exact .done _
  have hclient : (Transfer.clientFor a endpoint).Runs kept [⟨.resolveSecret key, .ok (some text)⟩,
      ⟨.now, time⟩, ⟨.connect endpoint (some credential.toCredentials), .ok own⟩]
      (some (.ok (own, true), kept)) := by
    simp only [Transfer.clientFor, Transfer.storedCredential, hname]
    refine Task.runs_attempt_bind.2 (.inl ⟨[_], _, some text, rfl, .ask _ (.done _), ?_⟩)
    simp only [hread]
    refine Task.runs_ask_bind.2 ⟨time, _, rfl, ?_⟩
    rw [if_neg (by simp [htime])]
    exact Task.runs_attempt_bind.2
      (.inl ⟨[_], [], own, rfl, .ask _ (.done _), Task.runs_pure.2 ⟨rfl, rfl⟩⟩)
  have hconnector : (Transfer.connectorClient endpoint).Runs kept []
      (some (.ok (some connector), kept)) := by
    simp only [Task.Runs, Transfer.connectorClient, Clients.obtain, ExceptT.run_mk, hkept]
    exact .done _
  refine Task.runs_bind.2 (.inl ⟨[], _, _, kept, rfl, hlocated, ?_⟩)
  refine Task.runs_bind.2 (.inl ⟨_, [], _, kept, (List.append_nil _).symm, hclient, ?_⟩)
  exact Task.runs_bind.2 (.inl ⟨[], [], _, kept, rfl, hconnector, .done _⟩)

/-- A sink is had one second before the credential expires, after another secret was stored. -/
theorem opens_of_provided_bucket :
    let p : Provisioner := ⟨.never, 900, true⟩
    let d : Bucket.Descriptor := ⟨"r1", "t1", "bucket-1", "memory://obs", "in/"⟩
    let credential : TemporaryCredential := ⟨"AK", "SK", "T", 2000⟩
    let connector : Client := ⟨0, "memory://obs"⟩
    let own : Client := ⟨1, "memory://obs"⟩
    let key := Identifier.secretKey "r1" []
    let provisioned := Bucket.Provisioned.ofDescriptor d key
    let said : List (Exchange World) := [⟨.connect "memory://obs" none, .ok connector⟩,
      connector.exchange (.createBucket "bucket-1") (.ok ()),
      ⟨.issueToken ⟨900, .putOnly "bucket-1"⟩, .ok credential⟩, ⟨.random, []⟩,
      ⟨.storeSecret key credential.toJson.text, .ok ()⟩]
    let opening : List (Exchange World) := [⟨.resolveSecret key, .ok (some credential.toJson.text)⟩,
      ⟨.now, (1000 : Int)⟩, ⟨.connect "memory://obs" (some ⟨"AK", "SK", some "T"⟩), .ok own⟩]
    ∃ kept sink, (p.provision d).Runs ∅ said (some (.ok provisioned, kept)) ∧
      provisioned.address.violations = [] ∧
      (sinkFor 2 provisioned.address).Runs kept opening (some (.ok sink, kept)) ∧
      sink.client = own ∧ sink.bucket = "bucket-1" ∧ sink.keyPrefix = "in/" := by
  intro p d credential connector own key provisioned said opening
  have hvalid : violations d = [] := by decide +kernel
  let kept : Clients := (∅ : Clients).insert "memory://obs" connector
  have hprovision : (p.provision d).Runs ∅ said (some (.ok provisioned, kept)) := by
    simp only [Task.Runs, Provisioner.provision, hvalid]
    exact .ask _ <| .ask _ <| .ask _ <| .ask _ <| .ask _ <| .done _
  let stored : Secrets := (∅ : Secrets).insert key credential.toJson.text
  have hk : Leads Keeper.Step (.memory ∅) said (.memory stored) :=
    .cons rfl <| .cons rfl <| .cons rfl <| .cons rfl <| .cons (.memory ∅) <| .nil _
  have hissued : ∀ request reply, (⟨.issueToken request, .ok reply⟩ : Exchange World) ∈ said →
      reply = credential := by
    intro request reply h
    simp only [said, List.mem_cons, List.not_mem_nil, or_false] at h
    rcases h with h | h | h | h | h
    all_goals cases h
    rfl
  obtain ⟨haddress, issued, honly, hopens⟩ := opens_of_provided hprovision hk
    fun request reply h => hissued request reply h ▸ by decide
  obtain rfl : issued = credential :=
    hissued _ issued ((honly _ issued).2 ⟨rfl, rfl⟩)
  have hne : key ≠ "other" := by decide +kernel
  have hother : Leads Keeper.Step (.memory stored) [⟨.storeSecret "other" "1", .ok ()⟩]
      (.memory (stored.insert "other" "1")) := .cons (.memory stored) (.nil _)
  have hkept : ∀ e ∈ ([⟨.storeSecret "other" "1", .ok ()⟩] : List (Exchange World)),
      ¬Keeper.Replaces key e := by
    intro e he
    obtain rfl := List.mem_singleton.1 he
    rintro (⟨_, h⟩ | h)
    · exact hne (World.Question.storeSecret.inj (Exchange.mk.inj h).1).1.symm
    · cases h
  let sink : Sink := { Sink.ofChunks own "bucket-1" provisioned.address.keyPrefix 2 with
    abortClient := some connector }
  have hsink : (sinkFor 2 provisioned.address).Runs kept opening (some (.ok sink, kept)) :=
    runs_of_stored (located_of_violations hvalid key)
      (Bucket.Provisioned.keyName_address (secretKey_ne "r1" []))
      (credential.ofText_text (by decide) (by decide)) (by decide) rfl 2 own
  have hthere : (stored.insert "other" "1").get? key = some credential.toJson.text :=
    (KeyMap.get?_insert_of_ne hne).trans KeyMap.get?_insert_self
  have hopening : Leads Keeper.Step (.memory (stored.insert "other" "1")) opening
      (.memory (stored.insert "other" "1")) :=
    .cons ⟨congrArg Except.ok hthere.symm, rfl⟩ <| .cons rfl <| .cons rfl <| .nil _
  have htime : ∀ time, (⟨.now, time⟩ : Exchange World) ∈ opening →
      credential.isExpiredAt time = false := by
    intro time h
    simp only [opening, List.mem_cons, List.not_mem_nil, or_false] at h
    rcases h with h | h | h
    all_goals cases h
    decide
  have hmade : ∀ credentials answer, (⟨.connect d.endpoint (some credentials), answer⟩ :
      Exchange World) ∈ opening → ∃ client, answer = .ok client := by
    intro credentials answer h
    simp only [opening, List.mem_cons, List.not_mem_nil, or_false] at h
    rcases h with h | h | h
    all_goals cases h
    exact ⟨own, rfl⟩
  obtain ⟨_, _, heq, -, hbucket, hprefix⟩ :=
    hopens _ _ hother hkept 2 kept opening _ _ hsink hopening htime hmade
  cases heq
  exact ⟨kept, sink, hprovision, haddress, hsink, rfl, hbucket, hprefix⟩

end BucketTransfer.Provision
