import BucketTransfer.ObjectStore.Remote
import BucketTransfer.Proofs.Dialogue.Course
import BucketTransfer.Proofs.Signing.Plain

/-!
# What a client makes of an answer

Of a request that was sent, the client's result is what the answer says.
-/
namespace BucketTransfer.ObjectStore.Remote

variable {c : Remote} {r : Request} {u : Unsigned} {response : Http.Response}

/-- What a client makes of an answer to a request, or of its failure. -/
def verdict (r : Request) : Except String Http.Response → Except Error r.Reply
  | .error m => .error (.transport m)
  | .ok response => if response.isSuccess then reply response r else .error (refusal response)

/-- A client asks the time, signs, and sends. -/
theorem answer_eq (hplan : c.plan r = .inr u) :
    c.answer r = .ask (I := Machine) .now fun (time : Int) =>
      match c.signed u (time / 1000) with
      | .error e => pure (.error e)
      | .ok request =>
        .ask (I := Machine) (.send request) fun (answered : Except String Http.Response) =>
          pure (verdict r answered) := by
  rw [answer, hplan]
  change Dialogue.ask (I := Machine) _ _ = _
  refine congrArg (Dialogue.ask (I := Machine) .now) (funext fun (time : Int) => ?_)
  simp only [Dialogue.bind]
  cases c.signed u (time / 1000) with
  | error e => rfl
  | ok request =>
    refine congrArg (Dialogue.ask (I := Machine) (.send request)) (funext fun answered => ?_)
    cases answered with
    | error m => rfl
    | ok response =>
      simp only [Dialogue.bind, verdict]
      cases response.isSuccess
      all_goals rfl

/-- A request was sent and answered so, and the client's result is this. -/
def Answered (c : Remote) (r : Request) (response : Http.Response) (result : Except Error r.Reply) :
    Prop :=
  ∃ (said : List (Exchange Machine)) (request : Http.Request),
    (c.answer r).Course said (some result) ∧ ⟨.send request, .ok response⟩ ∈ said

theorem Answered.eq {result : Except Error r.Reply} (h : c.Answered r response result) :
    result = verdict r (.ok response) := by
  obtain ⟨said, request, hcourse, hmem⟩ := h
  cases hplan : c.plan r with
  | inl outcome =>
    rw [answer, hplan] at hcourse
    obtain ⟨rfl, -⟩ := Dialogue.course_pure.1 hcourse
    exact absurd hmem List.not_mem_nil
  | inr u =>
    rw [answer_eq hplan] at hcourse
    obtain ⟨time, rest, rfl, hsigned⟩ := Dialogue.course_ask.1 hcourse
    rcases List.mem_cons.1 hmem with heq | hmem
    · cases heq
    split at hsigned
    · obtain ⟨rfl, -⟩ := Dialogue.course_pure.1 hsigned
      exact absurd hmem List.not_mem_nil
    · obtain ⟨answered, rest, rfl, hsent⟩ := Dialogue.course_ask.1 hsigned
      obtain ⟨rfl, hresult⟩ := Dialogue.course_pure.1 hsent
      cases List.mem_singleton.1 hmem
      exact Option.some.inj hresult

/-- Whether what a client sends is plain text, so that it can be signed. -/
structure SendsPlain (c : Remote) : Prop where
  host : Signing.IsPlain c.host
  region : Signing.IsPlain c.region
  accessKey : Signing.IsPlain c.credentials.accessKey
  token : ∀ token ∈ c.credentials.sessionToken, Signing.IsPlain token

theorem exists_signed (hc : c.SendsPlain) (hu : u.headers.ArePlain) (seconds : Int) :
    ∃ request, c.signed u seconds = .ok request := by
  have hhost : Signing.IsPlain "host" := by decide
  have hheaders := hu.insert hhost hc.host.isTextByte
  let input : Signing.Input :=
    { method := u.method, uri := Signing.canonicalUri u.path
      query := Signing.canonicalQuery u.query, payloadHash := Signing.payloadHash u.body
      time := .ofSeconds seconds }
  have hregion : (Signing.Scheme.store c.region).HasPlainRegion := hc.region
  obtain ⟨headers, hsign⟩ := Signing.Scheme.exists_sign input hregion hc.accessKey hc.token
    (Signing.isPlain_payloadHash u.body) hheaders (Signing.Headers.contains_insert_self _ _ _)
  exact ⟨⟨u.method, c.urlOf u, headers, u.body⟩, by rw [signed, hsign]⟩

/-- The header fields of what is sent are plain. -/
theorem arePlain_of_plan (hplan : c.plan r = .inr u) : u.headers.ArePlain := by
  have hnone : ({} : Signing.Headers).ArePlain := fun f hf => absurd hf List.not_mem_nil
  have htype : Signing.IsPlain "application/xml" := by decide
  have hxml : xmlHeaders.ArePlain := hnone.insert (by decide) htype.isTextByte
  cases r with
  | createBucket bucket =>
    rw [plan] at hplan
    split at hplan
    · cases hplan
      exact hnone
    · cases hplan
      exact hxml
  | deleteObjects bucket keys =>
    rw [plan] at hplan
    split at hplan
    · cases hplan
    · split at hplan
      · cases hplan
      · cases hplan
        exact hxml.insert (by decide) (Signing.isPlain_base64 _).isTextByte
  | completeUpload upload parts =>
    cases hplan
    exact hxml
  | close => cases hplan
  | _ =>
    cases hplan
    exact hnone

/-- A request that a client with plain texts sends may be answered in any way. -/
theorem answered_verdict (hc : c.SendsPlain) (hplan : c.plan r = .inr u)
    (response : Http.Response) : c.Answered r response (verdict r (.ok response)) := by
  obtain ⟨request, hsigned⟩ := exists_signed hc (arePlain_of_plan hplan) ((0 : Int) / 1000)
  refine ⟨[⟨.now, (0 : Int)⟩, ⟨.send request, .ok response⟩], request, ?_, by simp⟩
  rw [answer_eq hplan]
  refine Dialogue.course_ask.2 ⟨(0 : Int), _, rfl, ?_⟩
  rw [hsigned]
  exact Dialogue.course_ask.2 ⟨.ok response, [], rfl, .done _⟩

end BucketTransfer.ObjectStore.Remote
