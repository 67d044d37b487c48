import BucketTransfer.Identity.Remote
import BucketTransfer.Proofs.ObjectStore.Answered
import BucketTransfer.Proofs.Signing.Carried
import BucketTransfer.Proofs.Url.Parts

/-!
# What is signed and what is asked for

The clients sign the path and the query that they write behind their endpoint. What they ask for is
just that if the endpoint ends with its host.
-/
namespace BucketTransfer

/-- A request may be sent in a dialogue. -/
def Sends {α : Type} (d : Dialogue Machine α) (request : Http.Request) : Prop :=
  ∃ (said : List (Exchange Machine)) (result : Option α) (answered : Except String Http.Response),
    d.Course said result ∧ ⟨.send request, answered⟩ ∈ said

section Sends
variable {α : Type} {request : Http.Request}

theorem not_sends_pure {value : α} : ¬ Sends (pure value) request := by
  rintro ⟨said, result, answered, hcourse, hmem⟩
  obtain ⟨rfl, -⟩ := Dialogue.course_pure.1 hcourse
  exact List.not_mem_nil hmem

theorem sends_now {next : Int → Dialogue Machine α} :
    Sends (.ask (I := Machine) .now next) request ↔ ∃ time, Sends (next time) request := by
  constructor
  · rintro ⟨said, result, answered, hcourse, hmem⟩
    obtain ⟨time, rest, rfl, hrest⟩ := Dialogue.course_ask.1 hcourse
    rcases List.mem_cons.1 hmem with heq | hmem
    · cases heq
    · exact ⟨time, rest, result, answered, hrest, hmem⟩
  · rintro ⟨time, rest, result, answered, hrest, hmem⟩
    exact ⟨_, result, answered, .ask (time : Int) hrest, List.mem_cons_of_mem _ hmem⟩

/-- A dialogue that sends a request and ends with its answer sends no other one. -/
theorem sends_send {made : Http.Request} {close : Except String Http.Response → α} :
    Sends (.ask (I := Machine) (.send made) fun answered => pure (close answered)) request ↔
      request = made := by
  constructor
  · rintro ⟨said, result, answered, hcourse, hmem⟩
    obtain ⟨got, rest, rfl, hrest⟩ := Dialogue.course_ask.1 hcourse
    obtain ⟨rfl, -⟩ := Dialogue.course_pure.1 hrest
    cases List.mem_singleton.1 hmem
    rfl
  · rintro rfl
    let failed : Except String Http.Response := .error ""
    exact ⟨_, _, failed, .ask failed (.done _), List.mem_singleton_self _⟩

end Sends

namespace ObjectStore.Remote
variable {c : Remote} {r : Request} {u : Unsigned} {request : Http.Request}
  {endpoint region : String} {credentials : Credentials}

theorem sends_answer : Sends (c.answer r) request ↔
    ∃ u, c.plan r = .inr u ∧ ∃ time : Int, c.signed u (time / 1000) = .ok request := by
  cases hplan : c.plan r with
  | inl outcome =>
    rw [answer, hplan]
    simp [not_sends_pure]
  | inr u =>
    rw [answer_eq hplan, sends_now]
    simp only [Sum.inr.injEq, exists_eq_left']
    refine exists_congr fun time => ?_
    cases c.signed u (time / 1000) with
    | error e => simp [not_sends_pure]
    | ok made =>
      refine sends_send.trans ?_
      rw [Except.ok.injEq]
      exact eq_comm

/-- What an endpoint is that a client is made for. -/
theorem exists_of_connect (h : connect endpoint region credentials = .ok c) :
    c.region = region ∧ c.credentials = credentials ∧
      ∃ url, Url.parse c.endpoint = .ok url ∧ url.hostText ≠ none := by
  unfold connect at h
  obtain ⟨normal, -, h⟩ := exists_of_bind h
  split at h
  · cases h
  · rename_i url hurl
    split at h
    · cases h
    · rename_i host hhost
      cases h
      exact ⟨rfl, rfl, url, hurl, by rw [hhost]; exact Option.some_ne_none _⟩

theorem exists_carries_of_signed {seconds : Int} (h : c.signed u seconds = .ok request) :
    request.url = c.endpoint ++
        Url.targetText (Signing.canonicalUri u.path) (Signing.canonicalQuery u.query) ∧
      ∃ signed, (Signing.Scheme.store c.region).Carries c.credentials request.headers signed ∧
        signed.uri = Signing.canonicalUri u.path ∧
        signed.query = Signing.canonicalQuery u.query := by
  unfold signed at h
  dsimp only at h
  split at h
  · cases h
  · rename_i headers hsign
    cases h
    exact ⟨String.append_assoc, Signing.Scheme.exists_carries hsign⟩

theorem exists_carries_of_sends (hconnect : connect endpoint region credentials = .ok c)
    (h : Sends (c.answer r) request) :
    ∃ u signed, c.plan r = .inr u ∧
      (Signing.Scheme.store region).Carries credentials request.headers signed ∧
      signed.uri = Signing.canonicalUri u.path ∧ signed.query = Signing.canonicalQuery u.query ∧
      Url.WrittenBehind c.endpoint request.url signed.uri signed.query := by
  obtain ⟨rfl, rfl, url, hurl, hhost⟩ := exists_of_connect hconnect
  obtain ⟨u, hplan, time, hsigned⟩ := sends_answer.1 h
  obtain ⟨htext, signed, hcarries, huri, hquery⟩ := exists_carries_of_signed hsigned
  refine ⟨u, signed, hplan, hcarries, huri, hquery, ?_⟩
  rw [htext, huri, hquery]
  exact Url.writtenBehind hurl hhost (Signing.head?_canonicalUri _)
    (Signing.forall_mem_canonicalUri _) (Signing.forall_mem_canonicalQuery _)

/-- A client with plain texts sends its requests. -/
theorem exists_sends (hc : c.SendsPlain) (hplan : c.plan r = .inr u) :
    ∃ request, Sends (c.answer r) request ∧ request.url = c.endpoint ++
      Url.targetText (Signing.canonicalUri u.path) (Signing.canonicalQuery u.query) := by
  obtain ⟨request, hsigned⟩ := exists_signed hc (arePlain_of_plan hplan) ((0 : Int) / 1000)
  exact ⟨request, sends_answer.2 ⟨u, hplan, 0, hsigned⟩, (exists_carries_of_signed hsigned).1⟩

end ObjectStore.Remote

namespace Identity.Remote
variable {c : Remote} {r : TokenRequest} {request : Http.Request}
  {endpoint : String} {credentials : Credentials}

/-- What a client makes of an answer, or of its failure. -/
def verdict : Except String Http.Response → Except Error TemporaryCredential
  | .error m => .error (.transport m)
  | .ok response =>
    match response.body.content with
    | .error m => .error (.transport m)
    | .ok body =>
      if response.isSuccess then credentialOf body else .error (refusal response.status body)

/-- A client asks the time, signs, and sends. -/
theorem issue_eq : c.issue r = .ask (I := Machine) .now fun (time : Int) =>
    match c.signed r (time / 1000) with
    | .error e => pure (.error e)
    | .ok request =>
      .ask (I := Machine) (.send request) fun (answered : Except String Http.Response) =>
        pure (verdict answered) := by
  rw [issue]
  change Dialogue.ask (I := Machine) _ _ = _
  refine congrArg (Dialogue.ask (I := Machine) .now) (funext fun (time : Int) => ?_)
  simp only [Dialogue.bind]
  cases c.signed r (time / 1000) with
  | error e => rfl
  | ok request =>
    refine congrArg (Dialogue.ask (I := Machine) (.send request)) (funext fun answered => ?_)
    cases answered with
    | error m => rfl
    | ok response =>
      simp only [Dialogue.bind, verdict]
      cases response.body.content with
      | error m => rfl
      | ok body =>
        cases response.isSuccess
        all_goals rfl

theorem sends_issue : Sends (c.issue r) request ↔
    ∃ time : Int, c.signed r (time / 1000) = .ok request := by
  rw [issue_eq, sends_now]
  refine exists_congr fun time => ?_
  cases c.signed r (time / 1000) with
  | error e => simp [not_sends_pure]
  | ok made =>
    refine sends_send.trans ?_
    rw [Except.ok.injEq]
    exact eq_comm

theorem exists_of_connect (h : connect endpoint credentials = .ok c) :
    c.credentials = credentials ∧ ∃ url, Url.parse c.endpoint = .ok url ∧ url.hostText ≠ none := by
  unfold connect at h
  dsimp only at h
  split at h
  · cases h
  · rename_i url hurl
    split at h
    · cases h
    · rename_i host hhost
      cases h
      exact ⟨rfl, url, hurl, by rw [hhost]; exact Option.some_ne_none _⟩

theorem canonicalUri_tokenPath : Signing.canonicalUri tokenPath = tokenPath := by
  decide +kernel

theorem exists_carries_of_signed {seconds : Int} (h : c.signed r seconds = .ok request) :
    request.url = c.endpoint ++ Url.targetText tokenPath "" ∧
      ∃ signed, Signing.Scheme.gateway.Carries c.credentials request.headers signed ∧
        signed.uri = tokenPath ++ "/" ∧ signed.query = "" := by
  unfold signed at h
  dsimp only at h
  split at h
  · cases h
  · rename_i headers hsign
    cases h
    obtain ⟨signed, hcarries, huri, hquery⟩ := Signing.Scheme.exists_carries hsign
    rw [canonicalUri_tokenPath] at huri ⊢
    have hend : tokenPath.toList.getLast? ≠ some '/' := by decide
    refine ⟨?_, signed, hcarries, ?_, hquery⟩
    · have hempty : "".isEmpty = true := rfl
      rw [Url.targetText, if_pos hempty, String.append_empty]
    · rw [huri, Signing.Scheme.signedUri, if_neg hend]

theorem exists_carries_of_sends (hconnect : connect endpoint credentials = .ok c)
    (h : Sends (c.issue r) request) :
    ∃ signed, Signing.Scheme.gateway.Carries credentials request.headers signed ∧
      signed.uri = tokenPath ++ "/" ∧ signed.query = "" ∧
      Url.WrittenBehind c.endpoint request.url tokenPath "" := by
  obtain ⟨rfl, url, hurl, hhost⟩ := exists_of_connect hconnect
  obtain ⟨time, hsigned⟩ := sends_issue.1 h
  obtain ⟨htext, signed, hcarries, huri, hquery⟩ := exists_carries_of_signed hsigned
  refine ⟨signed, hcarries, huri, hquery, ?_⟩
  rw [htext]
  have hslash := Signing.head?_canonicalUri tokenPath
  have hpath := Signing.forall_mem_canonicalUri tokenPath
  rw [canonicalUri_tokenPath] at hslash hpath
  exact Url.writtenBehind hurl hhost hslash hpath fun c hc => absurd hc List.not_mem_nil

/-- Plain texts can be signed. -/
theorem exists_signed (hhost : Signing.IsPlain c.host)
    (hkey : Signing.IsPlain c.credentials.accessKey)
    (htoken : ∀ token ∈ c.credentials.sessionToken, Signing.IsPlain token) (r : TokenRequest)
    (seconds : Int) : ∃ request, c.signed r seconds = .ok request := by
  have hname : Signing.IsPlain "host" := by decide
  have htype : Signing.IsPlain "content-type" := by decide
  have hjson : Signing.IsPlain "application/json;charset=utf8" := by decide
  have hnone : ({} : Signing.Headers).ArePlain := fun f hf => absurd hf List.not_mem_nil
  have hheaders := (hnone.insert hname hhost.isTextByte).insert htype hjson.isTextByte
  let body := utf8 r.toJson.text
  let input : Signing.Input :=
    { method := "POST", uri := Signing.canonicalUri tokenPath, query := ""
      payloadHash := Signing.payloadHash body, time := .ofSeconds seconds }
  obtain ⟨headers, hsign⟩ := Signing.Scheme.exists_sign (s := .gateway) input trivial hkey htoken
    (Signing.isPlain_payloadHash body) hheaders rfl
  refine ⟨⟨"POST", c.endpoint ++ Signing.canonicalUri tokenPath, headers, body⟩, ?_⟩
  unfold signed
  simp only [input, body] at hsign
  simp only [hsign, body]

end Identity.Remote

namespace Services

/-- Both clients sign the path and the query that they write behind their endpoint. These are what
is asked for if the endpoint ends with its host. Otherwise something else is, unless the endpoint
has a fragment, which hides them, and asks for the same itself. The path of an identity service is
signed with a slash at its end. -/
theorem requested_of_sent (endpoint region : String) (credentials : Credentials)
    (request : Http.Request) :
    (∀ (c : ObjectStore.Remote) (r : ObjectStore.Request),
      ObjectStore.Remote.connect endpoint region credentials = .ok c →
      Sends (c.answer r) request →
        ∃ u signed, c.plan r = .inr u ∧
          (Signing.Scheme.store region).Carries credentials request.headers signed ∧
          signed.uri = Signing.canonicalUri u.path ∧
          signed.query = Signing.canonicalQuery u.query ∧
          Url.WrittenBehind c.endpoint request.url signed.uri signed.query) ∧
      ∀ (c : Identity.Remote) (r : Identity.TokenRequest),
        Identity.Remote.connect endpoint credentials = .ok c →
        Sends (c.issue r) request →
          ∃ signed, Signing.Scheme.gateway.Carries credentials request.headers signed ∧
            signed.uri = Identity.Remote.tokenPath ++ "/" ∧ signed.query = "" ∧
            Url.WrittenBehind c.endpoint request.url Identity.Remote.tokenPath "" := by
  constructor
  · intro c r hconnect hsends
    exact ObjectStore.Remote.exists_carries_of_sends hconnect hsends
  · intro c r hconnect hsends
    exact Identity.Remote.exists_carries_of_sends hconnect hsends

/-- A client of a store at a host. -/
def atHost : ObjectStore.Remote := ⟨"http://h", "h", "r", ⟨"k", "s", none⟩⟩

/-- A client of a store below a path. -/
def atPath : ObjectStore.Remote := ⟨"http://h/base", "h", "r", ⟨"k", "s", none⟩⟩

/-- A client of an identity service whose endpoint has a query. -/
def atQuery : Identity.Remote := ⟨"http://i?x", "i", ⟨"k", "s", none⟩⟩

private theorem sendsPlain_atPath : atPath.SendsPlain :=
  ⟨by decide, by decide, by decide, by decide⟩

private theorem sendsPlain_atHost : atHost.SendsPlain :=
  ⟨by decide, by decide, by decide, by decide⟩

theorem requested_of_sent_to_host :
    (∃ request signed sent, Sends (atHost.answer (.listObjects "b" "" none)) request ∧
      (Signing.Scheme.store "r").Carries atHost.credentials request.headers signed ∧
      signed.uri = "/b" ∧ signed.query = "max-keys=1000" ∧
      Url.parts request.url = some sent ∧ sent.Asks signed.uri.toList signed.query.toList) ∧
      ∃ request signed, Sends (atQuery.issue ⟨1800, ⟨"1.1", []⟩⟩) request ∧
        Signing.Scheme.gateway.Carries atQuery.credentials request.headers signed ∧
        signed.uri = "/v3.0/OS-CREDENTIAL/securitytokens/" ∧
        ¬ ∃ sent, Url.parts request.url = some sent ∧
          sent.Asks Identity.Remote.tokenPath.toList [] := by
  constructor
  · have hconnect : ObjectStore.Remote.connect "http://h/" "r" atHost.credentials = .ok atHost := by
      decide +kernel
    obtain ⟨request, hsends, -⟩ := ObjectStore.Remote.exists_sends (r := .listObjects "b" "" none)
      sendsPlain_atHost rfl
    obtain ⟨u, signed, hplan, hcarries, huri, hquery, hbehind⟩ :=
      (requested_of_sent _ _ _ request).1 _ _ hconnect hsends
    cases hplan
    have hparts : Url.partsBegun atHost.endpoint = some ⟨[], none, none⟩ := by decide +kernel
    obtain ⟨sent, hsent, hasks⟩ := (hbehind.asks_iff hparts).2 (.inl ⟨rfl, rfl, rfl⟩)
    have hpath : Signing.canonicalUri "/b" = "/b" := by decide +kernel
    have hlimit : Signing.canonicalQuery [("max-keys", "1000")] = "max-keys=1000" := by
      decide +kernel
    exact ⟨request, signed, sent, hsends, hcarries, huri.trans hpath, hquery.trans hlimit, hsent,
      hasks⟩
  · have hconnect : Identity.Remote.connect "http://i?x/" atQuery.credentials = .ok atQuery := by
      decide +kernel
    obtain ⟨request, hrequest⟩ := Identity.Remote.exists_signed (c := atQuery) (by decide)
      (by decide) (by decide) ⟨1800, ⟨"1.1", []⟩⟩ ((0 : Int) / 1000)
    have hsends := Identity.Remote.sends_issue.2 ⟨0, hrequest⟩
    obtain ⟨signed, hcarries, huri, hquery, hbehind⟩ :=
      (requested_of_sent _ "r" _ request).2 _ _ hconnect hsends
    have hparts : Url.partsBegun atQuery.endpoint = some ⟨[], some ['x'], none⟩ := by
      decide +kernel
    refine ⟨request, signed, hsends, hcarries, huri, fun hasks => ?_⟩
    rcases (hbehind.asks_iff hparts).1 hasks with ⟨-, hnone, -⟩ | ⟨hsome, -⟩
    · cases hnone
    · exact hsome rfl

/-- Below a path something else is asked for than is signed. -/
theorem not_asks_at_path :
    ¬ ∀ (endpoint region : String) (credentials : Credentials) (c : ObjectStore.Remote)
      (r : ObjectStore.Request) (u : ObjectStore.Unsigned) (request : Http.Request)
      (sent : Url.Parts),
      ObjectStore.Remote.connect endpoint region credentials = .ok c → c.plan r = .inr u →
      Sends (c.answer r) request → Url.parts request.url = some sent →
        sent.Asks (Signing.canonicalUri u.path).toList (Signing.canonicalQuery u.query).toList := by
  intro h
  have hconnect : ObjectStore.Remote.connect "http://h/base" "r" ⟨"k", "s", none⟩ = .ok atPath := by
    decide +kernel
  obtain ⟨request, hsends, hurl⟩ := ObjectStore.Remote.exists_sends (r := .deleteBucket "b")
    sendsPlain_atPath rfl
  have hsent : Url.parts (atPath.endpoint ++ Url.targetText (Signing.canonicalUri "/b")
      (Signing.canonicalQuery [])) = some ⟨"/base/b".toList, none, none⟩ := by decide +kernel
  have hasks := h _ _ _ _ _ _ _ _ hconnect rfl hsends (hurl ▸ hsent)
  have hne : "/base/b".toList ≠ (Signing.canonicalUri "/b").toList := by decide +kernel
  exact hne hasks.1

end Services

end BucketTransfer
