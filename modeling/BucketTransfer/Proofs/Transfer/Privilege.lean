import BucketTransfer.Proofs.Dialogue.Rehearsal
import BucketTransfer.Proofs.Transfer.Protocol
import BucketTransfer.Services.Scripted
import BucketTransfer.Transfer.Access

/-!
# The privilege of a sink

What a sink may do for an address that names a stored credential. It uploads through a client that
was made with this credential, or there is no sink. The connector's client is asked for one thing
only: to abort an upload of the sink that its own client has just not been allowed to abort.
-/
namespace BucketTransfer.Transfer
open ObjectStore (Upload)
open Dialogue (Course)

namespace Sink
variable (s : Sink)

/-- What concerns no client but the sink's own, or the one that a part is fetched with. -/
def Own (parts : List Part) (e : Exchange World) : Prop :=
  ∀ c r, e.question = .request c r → c = s.client ∨
    ∃ p ∈ parts, ∃ bucket key, p.content = .object c bucket key ∧ r = .getObject bucket key

/-- What is said in a transfer that keeps to the sink's own client. Only its end may be an abort
through the other client, of an upload that was started, right after the own client was not allowed
to abort it. -/
inductive Confined (parts : List Part) : List (Exchange World) → Prop where
  | own (said : List (Exchange World)) (own : ∀ e ∈ said, s.Own parts e) : Confined parts said
  | delegated (before : List (Exchange World)) (own : ∀ e ∈ before, s.Own parts e)
      (key : String) (started : Upload)
      (initiated : s.client.exchange (.initiateUpload s.bucket key) (.ok started) ∈ before)
      (cause : ObjectStore.Error) (denied : cause.reason = .accessDenied) (other : Client)
      (set : s.abortClient = some other) (answer : Except ObjectStore.Error Unit) :
      Confined parts (before ++
        [s.client.exchange (.abortUpload ⟨s.bucket, key, started.id⟩) (.error cause),
          other.exchange (.abortUpload ⟨s.bucket, key, started.id⟩) answer])

variable {s} {parts : List Part} {p : Part} {upload : Upload} {stream : ByteStream}
  {said later : List (Exchange World)}

theorem own_exchange (r : ObjectStore.Request) (answer : Except ObjectStore.Error r.Reply) :
    s.Own parts (s.client.exchange r answer) := by
  intro c r' h
  injection h with hclient
  exact .inl hclient.symm

theorem own_of_opening {opened : Option (Except Error ByteStream)} (hp : p ∈ parts)
    (h : Course p.openStream said opened) : ∀ e ∈ said, s.Own parts e := by
  intro e he c r hquestion
  exact .inr ⟨p, hp, (Part.reads_of_opening h e he).request hquestion⟩

private theorem own_of_granted (h : ∀ e ∈ said, s.Granted e) : ∀ e ∈ said, s.Own parts e := by
  intro e he
  obtain ⟨r, reply, rfl⟩ := h e he
  exact own_exchange r _

private theorem own_of_ending {done : List ObjectStore.CompletedPart}
    {outcome : Except Stop Progress} (h : s.Ending upload stream done said outcome) :
    ∀ e ∈ said, s.Own parts e := by
  intro e he
  cases h with
  | completed | incomplete | refused =>
    obtain rfl := List.mem_singleton.1 he
    exact own_exchange _ _
  | unreadable | tooMany => exact absurd he List.not_mem_nil

theorem Confined.append (hbefore : ∀ e ∈ said, s.Own parts e) (h : s.Confined parts later) :
    s.Confined parts (said ++ later) := by
  cases h with
  | own _ own => exact .own _ (List.forall_mem_append.2 ⟨hbefore, own⟩)
  | delegated before own key started initiated cause denied other set answer =>
    rw [← List.append_assoc]
    exact .delegated _ (List.forall_mem_append.2 ⟨hbefore, own⟩) key started
      (List.mem_append_right _ initiated) cause denied other set answer

private theorem confined_of_session {name : String} {outcome : Except Error Uploaded}
    (h : s.Session stream name said outcome) : s.Confined parts said := by
  cases h with
  | refused cause =>
    refine .own _ fun e he => ?_
    obtain rfl := List.mem_singleton.1 he
    exact own_exchange _ _
  | completed started done last progress ending =>
    have hgranted := granted_of_session (.completed started done last progress ending)
    exact .own _ (own_of_granted hgranted)
  | aborted started done last stop abort ending aborted =>
    have hown : ∀ e ∈ s.client.exchange (.initiateUpload s.bucket (s.keyPrefix ++ name))
        (.ok started) :: (s.uploads ⟨s.bucket, s.keyPrefix ++ name, started.id⟩ stream.bytes 1 done
          ++ last), s.Own parts e :=
      List.forall_mem_cons.2
        ⟨own_exchange _ _, List.forall_mem_append.2
          ⟨own_of_granted granted_of_uploads, own_of_ending ending⟩⟩
    cases aborted with
    | once answer =>
      refine Confined.append hown (.own _ fun e he => ?_)
      obtain rfl := List.mem_singleton.1 he
      exact own_exchange _ _
    | twice cause denied other set answer =>
      exact .delegated _ hown _ started List.mem_cons_self cause denied other set answer

/-- The calls of a transfer keep to the sink's own client but for an abort at the end. -/
theorem confined_of_calls {rest : List Part} {outcome : Except Error Summary}
    (h : s.Calls rest said outcome) (hrest : ∀ p ∈ rest, p ∈ parts) : s.Confined parts said := by
  induction h with
  | nil => exact .own [] (by simp)
  | failed p others said e part =>
    have hp := hrest p List.mem_cons_self
    cases part with
    | unopened cause opening opened => exact .own _ (own_of_opening hp opened)
    | opened stream opening calls opened _ session =>
      exact (confined_of_session session).append (own_of_opening hp opened)
  | next p others said later object outcome part _ ih =>
    have hp := hrest p List.mem_cons_self
    refine (ih fun q hq => hrest q (List.mem_cons_of_mem p hq)).append ?_
    cases part with
    | opened stream opening calls opened _ session =>
      exact List.forall_mem_append.2
        ⟨own_of_opening hp opened, own_of_granted (granted_of_session session)⟩

theorem confined_of_course {result : Option (Except Error Summary)}
    (h : Course (s.transfer parts) said result) : result.isSome ∧ s.Confined parts said := by
  obtain ⟨_, rfl, hcalls⟩ := course_transfer h
  exact ⟨rfl, confined_of_calls hcalls fun _ hp => hp⟩

end Sink

/-- How the text of a stored credential becomes a client: it is read, it has not expired, and a
client is made with it. -/
inductive Admission (endpoint text : String) :
    List (Exchange World) → Except Error Client → Prop where
  | unreadable (fault : Json.Fault) (bad : TemporaryCredential.ofText text = .error fault) :
      Admission endpoint text []
        (.error (.general s!"stored credential is unreadable: {fault.category}"))
  | expired (credential : TemporaryCredential) (time : Int)
      (read : TemporaryCredential.ofText text = .ok credential)
      (past : credential.isExpiredAt time = true) :
      Admission endpoint text [⟨.now, time⟩]
        (.error (.notAuthorized s!"temporary credential for {endpoint} has expired"))
  | made (credential : TemporaryCredential) (time : Int)
      (read : TemporaryCredential.ofText text = .ok credential)
      (valid : credential.isExpiredAt time = false) (answer : Except ObjectStore.Error Client) :
      Admission endpoint text
        [⟨.now, time⟩, ⟨.connect endpoint (some ⟨credential.accessKey, credential.secretKey,
          some credential.securityToken⟩), answer⟩]
        (answer.mapError unreachable)

variable {a : DataAddress} {endpoint key text : String} {kept : Clients}
  {said : List (Exchange World)}

/-- What is done with the text of a stored credential. -/
private theorem admission_of_runs {result : Option (Except Error (Client × Bool) × Clients)}
    (h : Task.Runs (match TemporaryCredential.ofText text with
      | .error fault => throw (.general s!"stored credential is unreadable: {fault.category}")
      | .ok credential => do
        if credential.isExpiredAt (← Task.ask World.now) then
          throw (.notAuthorized s!"temporary credential for {endpoint} has expired")
        else
          let client ← Task.attempt unreachable
            (Clients.withCredentials endpoint credential.toCredentials)
          return (client, true)) kept said result) :
    ∃ admitted, Admission endpoint text said admitted ∧
      result = some (admitted.map (·, true), kept) := by
  cases hread : TemporaryCredential.ofText text with
  | error fault =>
    simp only [hread] at h
    obtain ⟨rfl, rfl⟩ := Task.runs_throw.1 h
    exact ⟨_, .unreadable fault hread, rfl⟩
  | ok credential =>
    simp only [hread] at h
    obtain ⟨time, rest, rfl, hrest⟩ := Task.runs_ask_bind.1 h
    split at hrest
    · rename_i hpast
      obtain ⟨rfl, rfl⟩ := Task.runs_throw.1 hrest
      exact ⟨_, .expired credential time hread hpast, rfl⟩
    · rename_i hvalid
      have hfinishes : (Clients.withCredentials endpoint credential.toCredentials).Finishes :=
        Dialogue.finishes_question
      rcases (Task.runs_attempt_bind_of_finishes hfinishes).1 hrest with
        ⟨first, last, client, rfl, hconnect, hend⟩ | ⟨cause, hconnect, rfl⟩
      · obtain ⟨answer, rfl, heq⟩ := Dialogue.course_question.1 hconnect
        obtain rfl := Option.some.inj heq
        obtain ⟨rfl, rfl⟩ := Task.runs_pure.1 hend
        exact ⟨_, .made credential time hread (Bool.eq_false_iff.2 hvalid) (.ok client), rfl⟩
      · obtain ⟨answer, rfl, heq⟩ := Dialogue.course_question.1 hconnect
        obtain rfl := Option.some.inj heq
        exact ⟨_, .made credential time hread (Bool.eq_false_iff.2 hvalid) (.error cause), rfl⟩

/-- An address that names a secret has it looked up, and one that is stored is the only way to a
client. -/
private theorem runs_clientFor {result : Option (Except Error (Client × Bool) × Clients)}
    (hname : a.keyName = some key) (h : (clientFor a endpoint).Runs kept said result) :
    ∃ (stored : Except Secrets.Error (Option String)) (rest : List (Exchange World)),
      said = ⟨.resolveSecret key, stored⟩ :: rest ∧ ∀ text, stored = .ok (some text) →
        ∃ admitted, Admission endpoint text rest admitted ∧
          result = some (admitted.map (·, true), kept) := by
  simp only [clientFor, storedCredential, hname] at h
  have hfinishes : (World.resolveSecret key).Finishes := Dialogue.finishes_question
  rcases (Task.runs_attempt_bind_of_finishes hfinishes).1 h with
    ⟨first, rest, stored, rfl, hresolve, hrest⟩ | ⟨cause, hresolve, -⟩
  · obtain ⟨answer, rfl, heq⟩ := Dialogue.course_question.1 hresolve
    obtain rfl := Option.some.inj heq
    refine ⟨.ok stored, rest, rfl, ?_⟩
    rintro text ⟨⟩
    exact admission_of_runs hrest
  · obtain ⟨answer, rfl, heq⟩ := Dialogue.course_question.1 hresolve
    obtain rfl := Option.some.inj heq
    exact ⟨.error cause, [], rfl, by simp⟩

private theorem runs_connectorClient {result : Option (Except Error (Option Client) × Clients)}
    (h : (connectorClient endpoint).Runs kept said result) :
    ∃ found kept', Clients.Obtained kept endpoint said found ∧
      result = some (.ok found.toOption, kept') := by
  have hobtains : ∀ said result, Course ((Clients.obtain endpoint).run kept) said result →
      ∃ found kept', result = some (found, kept') ∧ Clients.Obtained kept endpoint said found :=
    fun _ _ h => Clients.runs_obtain h
  rcases Dialogue.course_bind.1 h with ⟨first, rest, outcome, rfl, hobtain, hend⟩ | ⟨hobtain, -⟩
  · obtain ⟨found, kept', heq, hfound⟩ := hobtains _ _ hobtain
    obtain rfl := Option.some.inj heq
    cases found with
    | error cause =>
      obtain ⟨rfl, rfl⟩ := Dialogue.course_pure.1 hend
      rw [List.append_nil]
      exact ⟨_, kept', hfound, rfl⟩
    | ok client =>
      obtain ⟨rfl, rfl⟩ := Dialogue.course_pure.1 hend
      rw [List.append_nil]
      exact ⟨_, kept', hfound, rfl⟩
  · obtain ⟨_, _, heq, -⟩ := hobtains _ _ hobtain
    exact absurd heq (by simp)

/-- A sink with the connector's client to fall back on when it aborts, if that can be made. -/
private theorem runs_withConnector {sink : Sink} {result : Option (Except Error Sink × Clients)}
    (h : Task.Runs (do return { sink with abortClient := ← connectorClient endpoint })
      kept said result) :
    ∃ found kept', Clients.Obtained kept endpoint said found ∧
      result = some (.ok { sink with abortClient := found.toOption }, kept') := by
  rcases Task.runs_bind.1 h with ⟨first, rest, other, kept', rfl, hother, hend⟩ |
    ⟨_, _, hother, -⟩ | ⟨hother, -⟩
  · obtain ⟨found, _, hfound, heq⟩ := runs_connectorClient hother
    cases heq
    obtain ⟨rfl, rfl⟩ := Task.runs_pure.1 hend
    rw [List.append_nil]
    exact ⟨found, kept', hfound, rfl⟩
  · obtain ⟨_, _, -, heq⟩ := runs_connectorClient hother
    cases heq
  · obtain ⟨_, _, -, heq⟩ := runs_connectorClient hother
    cases heq

/-- How a sink for an address comes about by the text of a stored credential: with the client that
this is made into, or not at all. -/
inductive Furnished (chunkSize : Nat) (a : DataAddress) (bucket endpoint text : String)
    (kept : Clients) : List (Exchange World) → Except Error Sink → Prop where
  | refused (said : List (Exchange World)) (e : Error)
      (admission : Admission endpoint text said (.error e)) :
      Furnished chunkSize a bucket endpoint text kept said (.error e)
  | made (said opening : List (Exchange World)) (client : Client)
      (admission : Admission endpoint text said (.ok client))
      (found : Except ObjectStore.Error Client)
      (obtained : Clients.Obtained kept endpoint opening found) :
      Furnished chunkSize a bucket endpoint text kept (said ++ opening)
        (.ok { Sink.ofChunks client bucket a.keyPrefix chunkSize with
          abortClient := found.toOption })

theorem furnished_of_runs {chunkSize : Nat} {bucket : String}
    {result : Option (Except Error Sink × Clients)} (hname : a.keyName = some key)
    (h : Task.Runs (do
      let (client, temporary) ← clientFor a endpoint
      let sink := Sink.ofChunks client bucket a.keyPrefix chunkSize
      if temporary then return { sink with abortClient := ← connectorClient endpoint }
      else return sink) kept said result) :
    ∃ (stored : Except Secrets.Error (Option String)) (rest : List (Exchange World)),
      said = ⟨.resolveSecret key, stored⟩ :: rest ∧ ∀ text, stored = .ok (some text) →
        ∃ outcome kept', result = some (outcome, kept') ∧
          Furnished chunkSize a bucket endpoint text kept rest outcome := by
  rcases Task.runs_bind.1 h with ⟨first, last, ⟨client, temporary⟩, _, rfl, hclient, hsink⟩ |
    ⟨e, kept', hclient, rfl⟩ | ⟨hclient, rfl⟩
  · obtain ⟨stored, asked, rfl, hstored⟩ := runs_clientFor hname hclient
    refine ⟨stored, asked ++ last, rfl, fun text htext => ?_⟩
    obtain ⟨admitted, hadmission, heq⟩ := hstored text htext
    cases admitted with
    | error e => cases heq
    | ok client' =>
      cases heq
      obtain ⟨found, kept', hfound, rfl⟩ := runs_withConnector hsink
      exact ⟨_, kept', rfl, .made asked last client hadmission found hfound⟩
  · obtain ⟨stored, asked, rfl, hstored⟩ := runs_clientFor hname hclient
    refine ⟨stored, asked, rfl, fun text htext => ?_⟩
    obtain ⟨admitted, hadmission, heq⟩ := hstored text htext
    cases admitted with
    | error e' =>
      cases heq
      exact ⟨_, kept, rfl, .refused asked e hadmission⟩
    | ok client => cases heq
  · obtain ⟨stored, asked, rfl, hstored⟩ := runs_clientFor hname hclient
    refine ⟨stored, asked, rfl, fun text htext => ?_⟩
    obtain ⟨admitted, -, heq⟩ := hstored text htext
    cases heq

/-- There is no sink for an address that cannot be used, and nothing is asked for it. -/
theorem runs_sinkFor {chunkSize : Nat} {result : Option (Except Error Sink × Clients)}
    (h : (sinkFor chunkSize a).Runs kept said result) :
    (∃ e, located a = .error e ∧ said = [] ∧ result = some (.error e, kept)) ∨
    ∃ bucket endpoint, located a = .ok (bucket, endpoint) ∧ Task.Runs (do
      let (client, temporary) ← clientFor a endpoint
      let sink := Sink.ofChunks client bucket a.keyPrefix chunkSize
      if temporary then return { sink with abortClient := ← connectorClient endpoint }
      else return sink) kept said result := by
  have hlocated : ∀ said result, Task.Runs (ExceptT.mk (pure (located a))) kept said result →
      said = [] ∧ result = some (located a, kept) := fun _ _ h => Dialogue.course_pure.1 h
  rcases Task.runs_bind.1 h with ⟨first, rest, ⟨bucket, endpoint⟩, _, rfl, hplace, hrest⟩ |
    ⟨e, _, hplace, rfl⟩ | ⟨hplace, -⟩
  · obtain ⟨rfl, heq⟩ := hlocated _ _ hplace
    obtain ⟨hok, rfl⟩ := Prod.mk.inj (Option.some.inj heq)
    exact .inr ⟨bucket, endpoint, hok.symm, hrest⟩
  · obtain ⟨rfl, heq⟩ := hlocated _ _ hplace
    obtain ⟨herror, rfl⟩ := Prod.mk.inj (Option.some.inj heq)
    exact .inl ⟨e, herror.symm, rfl, rfl⟩
  · obtain ⟨-, heq⟩ := hlocated _ _ hplace
    cases heq

/-- A sink for an address that names a stored credential uploads with that credential or is not made
at all, and does nothing through the connector's client but to abort, at the end of a transfer, an
upload of its own that it was not allowed to abort. -/
theorem sinkFor_of_stored_credential {chunkSize : Nat}
    {result : Option (Except Error Sink × Clients)} (hname : a.keyName = some key)
    (h : (sinkFor chunkSize a).Runs kept said result) :
    (∃ e, located a = .error e ∧ said = [] ∧ result = some (.error e, kept)) ∨
    ∃ bucket endpoint, located a = .ok (bucket, endpoint) ∧
      ∃ (stored : Except Secrets.Error (Option String)) (rest : List (Exchange World)),
        said = ⟨.resolveSecret key, stored⟩ :: rest ∧ ∀ text, stored = .ok (some text) →
          ∃ outcome kept', result = some (outcome, kept') ∧
            Furnished chunkSize a bucket endpoint text kept rest outcome ∧
            ∀ sink, outcome = .ok sink → ∀ parts later final,
              Course (sink.transfer parts) later final →
                final.isSome ∧ sink.Confined parts later := by
  rcases runs_sinkFor h with hunusable | ⟨bucket, endpoint, hplace, hrest⟩
  · exact .inl hunusable
  · obtain ⟨stored, rest, rfl, hstored⟩ := furnished_of_runs hname hrest
    refine .inr ⟨bucket, endpoint, hplace, stored, rest, rfl, fun text htext => ?_⟩
    obtain ⟨outcome, kept', hresult, hfurnished⟩ := hstored text htext
    exact ⟨outcome, kept', hresult, hfurnished, fun _ _ _ _ _ => Sink.confined_of_course⟩

/-- The connector's client is at hand, and the sink is made with the stored credential. -/
theorem sinkFor_of_two_clients :
    let text := "\x7b\"ak\":\"a\",\"sk\":\"s\",\"token\":\"t\"\x7d"
    let d : Bucket.Descriptor := ⟨"r1", "t1", "bucket", "memory://obs", "p/"⟩
    let a := (Bucket.Provisioned.ofDescriptor d "k").address
    ∃ said sink kept' bucket endpoint, (sinkFor 2 a).Runs ∅ said (some (.ok sink, kept')) ∧
      sink.client ≠ ⟨0, "memory://obs"⟩ ∧ sink.abortClient = some ⟨0, "memory://obs"⟩ ∧
      Furnished 2 a bucket endpoint text ∅ said.tail (.ok sink) ∧
      ∀ parts later final, Course (sink.transfer parts) later final →
        final.isSome ∧ sink.Confined parts later := by
  intro text d a
  have hname : a.keyName = some "k" := by decide +kernel
  let w : Rehearsal Services.Scripted :=
    { services := { stores := [{}], secrets := (∅ : Secrets).insert "k" text } }
  have hclients : (Rehearsal.play ((sinkFor 2 a).run ∅) w).1.bind (fun p => p.1.toOption.map
      fun sink => (sink.client, sink.abortClient)) =
        some (⟨1, "memory://obs"⟩, some ⟨0, "memory://obs"⟩) := by decide +kernel
  rcases hplay : Rehearsal.play ((sinkFor 2 a).run ∅) w with ⟨_ | ⟨_ | sink, kept'⟩, last⟩
  · rw [hplay] at hclients
    exact absurd hclients (by simp)
  · rw [hplay] at hclients
    exact absurd hclients (by simp [Except.toOption])
  · rw [hplay] at hclients
    obtain ⟨hclient, habort⟩ := Prod.mk.inj (Option.some.inj hclients)
    obtain ⟨said, hruns, hsaid⟩ := Rehearsal.play_eq_some_iff.1 hplay
    rcases sinkFor_of_stored_credential hname hruns with ⟨e, -, -, heq⟩ |
      ⟨bucket, endpoint, -, stored, rest, rfl, hstored⟩
    · cases heq
    · obtain ⟨mid, hanswer, -⟩ := Rehearsal.answers_cons.1 hsaid
      have htext : stored = .ok (some text) :=
        (Option.some.inj (congrArg Prod.fst hanswer)).symm
      obtain ⟨_, _, heq, hfurnished, hconfined⟩ := hstored text htext
      cases heq
      refine ⟨_, sink, kept', bucket, endpoint, hruns, ?_, habort, hfurnished, hconfined sink rfl⟩
      rw [hclient]
      decide

end BucketTransfer.Transfer
