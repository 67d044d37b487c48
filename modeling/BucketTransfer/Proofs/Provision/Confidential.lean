import BucketTransfer.Proofs.Dialogue.Parallel
import BucketTransfer.Proofs.Provision.Setup

/-!
# Where a credential goes

A credential that is issued while a bucket is provided goes into the value of the secret and nowhere
else: whoever sees all but that value cannot tell one credential from another.
-/
namespace BucketTransfer.Provision

/-- Questions that are the same but for the credential that is to be kept. -/
inductive AskedAlike : World.Question → World.Question → Prop where
  | same (q : World.Question) : AskedAlike q q
  | stored (key : String) (c c' : TemporaryCredential) :
      AskedAlike (.storeSecret key c.toJson.text) (.storeSecret key c'.toJson.text)

/-- Exchanges that are the same but for the credential that is issued or kept. -/
inductive SaidAlike : Exchange World → Exchange World → Prop where
  | same (e : Exchange World) : SaidAlike e e
  | issued (r : Identity.TokenRequest) (c c' : TemporaryCredential) :
      SaidAlike ⟨.issueToken r, .ok c⟩ ⟨.issueToken r, .ok c'⟩
  | stored (key : String) (c c' : TemporaryCredential) (answer : Except Secrets.Error Unit) :
      SaidAlike ⟨.storeSecret key c.toJson.text, answer⟩ ⟨.storeSecret key c'.toJson.text, answer⟩

/-- Two who answer whatever the world is asked, and who answer the same after what is the same but
for credentials. -/
structure AnswerAlike
    (answer answer' : List (Exchange World) → (q : World.Question) → q.Answer) : Prop where
  /-- The credentials may differ, and the failures may not. -/
  issueToken : ∀ past past', List.Forall₂ SaidAlike past past' → ∀ r,
    OutcomesAlike (fun _ _ => True) (answer past (.issueToken r)) (answer' past' (.issueToken r))
  /-- It does not depend on its value whether a secret is kept. -/
  storeSecret : ∀ past past', List.Forall₂ SaidAlike past past' → ∀ key value value',
    answer past (.storeSecret key value) = answer' past' (.storeSecret key value')
  other : ∀ past past', List.Forall₂ SaidAlike past past' → ∀ q, (∀ r, q ≠ .issueToken r) →
    (∀ key value, q ≠ .storeSecret key value) → answer past q = answer' past' q

section Step
variable {answer answer' : List (Exchange World) → (q : World.Question) → q.Answer}
  {past past' : List (Exchange World)} {q q' : World.Question}

private theorem AnswerAlike.said (h : AnswerAlike answer answer')
    (hpast : List.Forall₂ SaidAlike past past') (hq : AskedAlike q q') :
    SaidAlike ⟨q, answer past q⟩ ⟨q', answer' past' q'⟩ := by
  cases hq with
  | stored key c c' =>
    rw [h.storeSecret past past' hpast key c.toJson.text c'.toJson.text]
    exact .stored key c c' _
  | same =>
    cases q with
    | issueToken r =>
      have hissued := h.issueToken past past' hpast r
      cases hone : answer past (.issueToken r) <;> cases hother : answer' past' (.issueToken r)
      all_goals rw [hone, hother] at hissued; cases hissued
      · exact .same _
      · exact .issued r _ _
    | storeSecret key value =>
      rw [h.storeSecret past past' hpast key value value]
      exact .same _
    | _ =>
      rw [h.other past past' hpast _ (by simp) (by simp)]
      exact .same _

/-- All answers are seen, but for credentials. -/
private theorem SaidAlike.heq_answer {e e' : Exchange World} (h : SaidAlike e e')
    (hissue : ∀ r, e.question ≠ .issueToken r) : HEq e.answer e'.answer := by
  cases h with
  | same => exact HEq.rfl
  | issued r c c' => exact absurd rfl (hissue r)
  | stored key c c' answer =>
    -- The questions may differ in the value, which the kind of answer does not depend on.
    exact heq_of_eq (Eq.refl answer)

private theorem SaidAlike.answer_eq (hissue : ∀ r, q ≠ .issueToken r) {answer answer' : q.Answer}
    (h : SaidAlike ⟨q, answer⟩ ⟨q, answer'⟩) : answer = answer' :=
  eq_of_heq (h.heq_answer hissue)

private theorem SaidAlike.kept_eq {key value value' : String}
    {answer answer' : Except Secrets.Error Unit}
    (h : SaidAlike ⟨.storeSecret key value, answer⟩ ⟨.storeSecret key value', answer'⟩) :
    answer = answer' :=
  eq_of_heq (h.heq_answer fun _ => nofun)

private theorem SaidAlike.issued_alike {r : Identity.TokenRequest}
    {answer answer' : Except Identity.Error TemporaryCredential}
    (h : SaidAlike ⟨.issueToken r, answer⟩ ⟨.issueToken r, answer'⟩) :
    OutcomesAlike (fun _ _ => True) answer answer' := by
  cases h with
  | same => exact .refl (fun _ => trivial) answer
  | issued r c c' => exact .ok c c' trivial

private theorem parallel_seen (q : World.Question) {V : q.Answer → q.Answer → Prop}
    (hissue : ∀ r, q ≠ .issueToken r) (hV : ∀ a, V a a) :
    Dialogue.Parallel AskedAlike SaidAlike V (Dialogue.question (I := World) q)
      (Dialogue.question (I := World) q) :=
  Dialogue.parallel_question (.same q) fun _ _ h => SaidAlike.answer_eq hissue h ▸ hV _

end Step

section Run
variable {p : Provisioner} {d : Bucket.Descriptor} {ε α β : Type} {V : α → β → Prop}

/-- Attempts that go together are made equally often, with equal waits. -/
private theorem Retry.parallel_run {r : Retry} {retryable : ε → Bool}
    {step : Dialogue World (Except ε α)} {step' : Dialogue World (Except ε β)}
    (h : Dialogue.Parallel AskedAlike SaidAlike (OutcomesAlike V) step step') :
    Dialogue.Parallel AskedAlike SaidAlike (OutcomesAlike V) (r.run World.pause retryable step)
      (r.run World.pause retryable step') := by
  suffices hfrom : ∀ left n, Dialogue.Parallel AskedAlike SaidAlike (OutcomesAlike V)
      (r.retryFrom World.pause retryable step left n)
      (r.retryFrom World.pause retryable step' left n) from hfrom _ _
  intro left
  induction left with
  | zero => exact fun _ => h
  | succ left ih =>
    intro n
    refine h.bind ?_
    intro x y hxy
    cases hxy with
    | ok a b together => exact Dialogue.parallel_pure (.ok a b together)
    | error e =>
      simp only
      split
      · exact (parallel_seen (.pause _) (by simp) fun _ => rfl).bind fun _ _ _ => ih (n + 1)
      · exact Dialogue.parallel_pure (.error e)

namespace Provisioner

private theorem parallel_client (endpoint bucket : String) :
    Task.Parallel AskedAlike SaidAlike Eq (client endpoint bucket) (client endpoint bucket) :=
  (Task.parallel_obtain (.same _) fun _ _ h => SaidAlike.answer_eq (by simp) h).describing

private theorem parallel_createBucket (c : Client) (bucket : String) :
    Dialogue.Parallel AskedAlike SaidAlike (OutcomesAlike Eq) (p.createBucket c bucket)
      (p.createBucket c bucket) := by
  have hrefl := OutcomesAlike.refl (ε := ObjectStore.Error) (V := @Eq Unit) fun _ => rfl
  have hsend := parallel_seen (.request c (.createBucket bucket)) (by simp) hrefl
  refine (Retry.parallel_run hsend).bind ?_
  intro x y hxy
  cases hxy with
  | ok _ _ together => exact Dialogue.parallel_pure (.ok () () rfl)
  | error e =>
    simp only
    split
    · exact Dialogue.parallel_pure (.ok () () rfl)
    · exact Dialogue.parallel_pure (.error _)

/-- Credentials are asked for equally often, with equal failures. -/
private theorem parallel_issue (bucket : String) :
    Dialogue.Parallel AskedAlike SaidAlike (OutcomesAlike fun _ _ => True) (p.issue bucket)
      (p.issue bucket) := by
  refine Retry.parallel_run ?_
  rw [Identity.issue]
  split
  · exact Dialogue.parallel_question (.same _) fun _ _ => SaidAlike.issued_alike
  · exact Dialogue.parallel_pure (.error _)

private theorem parallel_storeSecret (key : String) (c c' : TemporaryCredential) :
    Dialogue.Parallel AskedAlike SaidAlike (OutcomesAlike Eq)
      (World.storeSecret key c.toJson.text) (World.storeSecret key c'.toJson.text) :=
  .ask _ _ _ _ (.stored key c c') fun answer _ h =>
    .done _ _ (SaidAlike.kept_eq h ▸ .refl (fun _ => rfl) answer)

private theorem parallel_provision :
    Task.Parallel AskedAlike SaidAlike Eq (p.provision d) (p.provision d) := by
  rw [provision]
  split
  · refine (parallel_client d.endpoint d.bucketName).bind ?_
    rintro c _ rfl
    refine (Task.parallel_attempt (parallel_createBucket c d.bucketName)).bind fun _ _ _ => ?_
    refine (Task.parallel_attempt (parallel_issue d.bucketName)).bind fun c c' _ => ?_
    refine (Task.parallel_ask (parallel_seen .random (by simp) fun _ => rfl)).bind ?_
    rintro random _ rfl
    refine (Task.parallel_attempt (parallel_storeSecret _ c c')).bind ?_
    exact fun _ _ _ => Task.parallel_pure rfl
  · exact Task.parallel_throw _

/-- A credential shows in no question but the one that keeps it, and not in the outcome. Those who
issue different credentials and answer alike apart from that are asked the same, in the same order,
and the outcome is the same. -/
theorem provision_of_answerAlike
    {answer answer' : List (Exchange World) → (q : World.Question) → q.Answer}
    (h : AnswerAlike answer answer') (p : Provisioner) (d : Bucket.Descriptor) (kept : Clients) :
    let one := ((p.provision d).run kept).converse answer []
    let other := ((p.provision d).run kept).converse answer' []
    List.Forall₂ SaidAlike one.1 other.1 ∧
      ∃ outcome, one.2 = some outcome ∧ other.2 = some outcome := by
  intro one other
  obtain ⟨hsaid, hresult⟩ :
      List.Forall₂ SaidAlike one.1 other.1 ∧ Option.Rel _ one.2 other.2 :=
    (parallel_provision kept).converse (fun _ _ _ _ => h.said) .nil
  refine ⟨hsaid, ?_⟩
  obtain ⟨outcome, kept', hend, -⟩ : ∃ outcome kept', one.2 = some (outcome, kept') ∧ _ :=
    runs_provision (Dialogue.course_converse answer _ _)
  rw [hend] at hresult ⊢
  generalize other.2 = result at hresult ⊢
  cases hresult with
  | some together =>
    obtain ⟨houtcome, rfl⟩ := together
    obtain rfl := houtcome.eq
    exact ⟨_, rfl, rfl⟩

/-- Everything can be done, and the second request for a credential is the first that is answered
with one. -/
private def issuing (c : TemporaryCredential) (past : List (Exchange World)) :
    (q : World.Question) → q.Answer
  | .connect endpoint _ => .ok ⟨0, endpoint⟩
  | .request _ (.createBucket _) => .ok ()
  | .issueToken _ => if past.length = 2 then .error (.transport "lost") else .ok c
  | q => Transfer.noAnswer q

/-- Two credentials are issued at the second attempt. -/
theorem provision_of_second_attempt :
    let p : Provisioner := ⟨.every 2 10, 900, true⟩
    let d : Bucket.Descriptor := ⟨"r1", "t1", "bucket-1", "memory://obs", ""⟩
    let c : TemporaryCredential := ⟨"AK1", "SK1", "T1", 1⟩
    let c' : TemporaryCredential := ⟨"AK2", "SK2", "T2", 2⟩
    let one := ((p.provision d).run ∅).converse (issuing c) []
    let other := ((p.provision d).run ∅).converse (issuing c') []
    let key := Identifier.secretKey "r1" []
    AnswerAlike (issuing c) (issuing c') ∧ List.Forall₂ SaidAlike one.1 other.1 ∧
      one.2 = other.2 ∧ one.1.getLast? = some ⟨.storeSecret key c.toJson.text, .ok ()⟩ ∧
      other.1.getLast? = some ⟨.storeSecret key c'.toJson.text, .ok ()⟩ := by
  intro p d c c' one other key
  have halike : AnswerAlike (issuing c) (issuing c') := by
    constructor
    case issueToken =>
      intro past past' hpast r
      simp only [issuing, hpast.length_eq]
      split
      · exact .error _
      · exact .ok c c' trivial
    case storeSecret => exact fun _ _ _ _ _ _ => rfl
    case other =>
      intro past past' _ q hissue _
      cases q with
      | issueToken r => exact absurd rfl (hissue r)
      | request c r => cases r <;> rfl
      | _ => rfl
  obtain ⟨hsaid, outcome, hone, hother⟩ := provision_of_answerAlike halike p d ∅
  have hvalid : violations d = [] := by decide +kernel
  refine ⟨halike, hsaid, hone.trans hother.symm, ?_, ?_⟩
  · simp only [one, provision, hvalid]
    rfl
  · simp only [other, provision, hvalid]
    rfl

end Provisioner

end Run

end BucketTransfer.Provision
