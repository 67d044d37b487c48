import BucketTransfer.Proofs.Dialogue.Task
import BucketTransfer.Provision.Provisioner

/-!
# Attempts

What is said while a step is tried again: the same step each time, a wait after each failure that
may pass, and no more attempts than there may be. The client that the steps need is come by first,
and that is not tried again.
-/
namespace BucketTransfer.Provision
open Dialogue (Course)

namespace Retry
variable {ε α : Type}

/-- The most attempts that are made. -/
def limit (r : Retry) : Nat := max 1 r.attempts

/-- A wait. -/
def waiting (time : Nat) : Exchange World := ⟨.pause time, ()⟩

/-- Failed attempts from a number on, with the wait after each. -/
def failed (r : Retry) (first : Nat) (attempts : List (List (Exchange World))) :
    List (Exchange World) :=
  (attempts.zipIdx first).flatMap fun (said, n) => said ++ [waiting (r.delay n)]

/-- What is said if each attempt is one exchange. -/
def tried (r : Retry) (exchange : Except ε α → Exchange World) (failures : List ε)
    (last : Except ε α) : List (Exchange World) :=
  r.failed 0 (failures.map fun e => [exchange (.error e)]) ++ [exchange last]

/-- How a step that is tried again can end: after failures that may pass, with a success, with a
failure that may not pass, or with the last attempt. -/
structure Given (r : Retry) (retryable : ε → Bool) (failures : List ε) (last : Except ε α) :
    Prop where
  retryable_of_mem : ∀ e ∈ failures, retryable e
  length_lt : failures.length < r.limit
  exhausted : ∀ e, last = .error e → retryable e → failures.length + 1 = r.limit

theorem failed_cons (r : Retry) (first : Nat) (said : List (Exchange World))
    (attempts : List (List (Exchange World))) :
    r.failed first (said :: attempts) =
      said ++ waiting (r.delay first) :: r.failed (first + 1) attempts := by
  simp [failed]

theorem mem_failed {r : Retry} {exchange : Except ε α → Exchange World} {failures : List ε}
    {first : Nat} {e : Exchange World}
    (h : e ∈ r.failed first (failures.map fun e => [exchange (.error e)])) :
    (∃ time, e = waiting time) ∨ ∃ cause ∈ failures, e = exchange (.error cause) := by
  obtain ⟨⟨said, n⟩, hattempt, he⟩ := List.mem_flatMap.1 h
  rcases List.mem_append.1 he with hsaid | hwait
  · obtain ⟨cause, hcause, rfl⟩ := List.mem_map.1 (List.fst_mem_of_mem_zipIdx hattempt)
    exact .inr ⟨cause, hcause, List.mem_singleton.1 hsaid⟩
  · exact .inl ⟨r.delay n, List.mem_singleton.1 hwait⟩

/-- Nothing is said but the one exchange, and waits. -/
theorem mem_tried {r : Retry} {exchange : Except ε α → Exchange World} {failures : List ε}
    {last : Except ε α} {e : Exchange World} (h : e ∈ r.tried exchange failures last) :
    (∃ time, e = waiting time) ∨
      ∃ answer, e = exchange answer ∧
        (answer = last ∨ ∃ cause ∈ failures, answer = .error cause) := by
  rcases List.mem_append.1 h with hfailed | hlast
  · rcases mem_failed hfailed with hwait | ⟨cause, hcause, rfl⟩
    · exact .inl hwait
    · exact .inr ⟨.error cause, rfl, .inr ⟨cause, hcause, rfl⟩⟩
  · exact .inr ⟨last, List.mem_singleton.1 hlast, .inl rfl⟩

/-- A step leads nowhere if its exchange changes nothing. -/
theorem eq_of_tried {S : Type} {step : S → Exchange World → S → Prop} {s t : S} {r : Retry}
    {exchange : Except ε α → Exchange World} {failures : List ε} {last : Except ε α}
    (hs : Leads step s (r.tried exchange failures last) t)
    (hwait : ∀ time s t, step s (waiting time) t → t = s)
    (hexchange : ∀ answer s t, step s (exchange answer) t → t = s) : t = s := by
  apply hs.eq_of_idle
  intro e he s t hstep
  rcases mem_tried he with ⟨time, rfl⟩ | ⟨answer, rfl, -⟩
  · exact hwait time s t hstep
  · exact hexchange answer s t hstep

private theorem course_retryFrom {r : Retry} {retryable : ε → Bool}
    {step : Dialogue World (Except ε α)} (hstep : step.Finishes) (left n : Nat)
    {said : List (Exchange World)} {result : Option (Except ε α)}
    (h : Course (r.retryFrom World.pause retryable step left n) said result) :
    ∃ (failures : List (List (Exchange World) × ε)) (final : List (Exchange World))
      (last : Except ε α), result = some last ∧
        said = r.failed n (failures.map (·.1)) ++ final ∧ Course step final (some last) ∧
        (∀ f ∈ failures, Course step f.1 (some (.error f.2)) ∧ retryable f.2) ∧
        failures.length ≤ left ∧
        ∀ e, last = .error e → retryable e → failures.length = left := by
  induction left generalizing n said with
  | zero =>
    obtain ⟨last, rfl⟩ := Option.isSome_iff_exists.1 (hstep h)
    exact ⟨[], said, last, rfl, rfl, h, by simp, Nat.le_refl 0, fun _ _ _ => rfl⟩
  | succ left ih =>
    obtain ⟨first, rest, answer, rfl, hfirst, hrest⟩ := hstep.course_bind.1 h
    cases answer with
    | ok a =>
      obtain ⟨rfl, rfl⟩ := Dialogue.course_pure.1 hrest
      exact ⟨[], first, .ok a, rfl, by simp [failed], hfirst, by simp, by simp, by simp⟩
    | error e =>
      simp only at hrest
      split at hrest
      · rename_i hretry
        obtain ⟨_, later, rfl, hlater⟩ := Dialogue.course_question_bind.1 hrest
        obtain ⟨failures, final, last, rfl, rfl, hfinal, hfailures, hle, hlast⟩ :=
          ih (n + 1) hlater
        refine ⟨(first, e) :: failures, final, last, rfl, ?_, hfinal, ?_, ?_, ?_⟩
        · rw [List.map_cons, failed_cons, List.append_assoc]
          rfl
        · exact List.forall_mem_cons.2 ⟨⟨hfirst, hretry⟩, hfailures⟩
        · simpa using hle
        · intro e' he hretry'
          simpa using hlast e' he hretry'
      · rename_i hgiven
        obtain ⟨rfl, rfl⟩ := Dialogue.course_pure.1 hrest
        refine ⟨[], first, .error e, rfl, by simp [failed], hfirst, by simp, by simp, ?_⟩
        intro e' he hretry
        rw [← Except.error.inj he] at hretry
        exact absurd hretry hgiven

/-- A step that is tried again is the same at each attempt. -/
theorem course_run {r : Retry} {retryable : ε → Bool} {step : Dialogue World (Except ε α)}
    (hstep : step.Finishes) {said : List (Exchange World)} {result : Option (Except ε α)}
    (h : Course (r.run World.pause retryable step) said result) :
    ∃ (failures : List (List (Exchange World) × ε)) (final : List (Exchange World))
      (last : Except ε α), result = some last ∧
        said = r.failed 0 (failures.map (·.1)) ++ final ∧ Course step final (some last) ∧
        (∀ f ∈ failures, Course step f.1 (some (.error f.2))) ∧
        r.Given retryable (failures.map (·.2)) last := by
  obtain ⟨failures, final, last, hresult, hsaid, hfinal, hfailures, hle, hlast⟩ :=
    course_retryFrom hstep _ 0 h
  refine ⟨failures, final, last, hresult, hsaid, hfinal, fun f hf => (hfailures f hf).1, ?_, ?_, ?_⟩
  · intro e he
    obtain ⟨f, hf, rfl⟩ := List.mem_map.1 he
    exact (hfailures f hf).2
  · rw [List.length_map, limit]
    omega
  · intro e he hretry
    rw [List.length_map, limit, hlast e he hretry]
    omega

/-- A step of one exchange has the same exchange at each attempt, but for the answer. -/
theorem course_run_exchange {r : Retry} {retryable : ε → Bool} {step : Dialogue World (Except ε α)}
    {exchange : Except ε α → Exchange World}
    (hstep : ∀ {said result}, Course step said result ↔
      ∃ answer, said = [exchange answer] ∧ result = some answer)
    {said : List (Exchange World)} {result : Option (Except ε α)}
    (h : Course (r.run World.pause retryable step) said result) :
    ∃ failures last, said = r.tried exchange failures last ∧ r.Given retryable failures last ∧
      result = some last := by
  have hfinishes : step.Finishes := by
    intro said result h
    obtain ⟨answer, -, rfl⟩ := hstep.1 h
    rfl
  obtain ⟨failures, final, last, rfl, rfl, hfinal, hfailures, hgiven⟩ := course_run hfinishes h
  obtain ⟨answer, rfl, heq⟩ := hstep.1 hfinal
  obtain rfl := Option.some.inj heq
  refine ⟨failures.map Prod.snd, last, ?_, hgiven, rfl⟩
  rw [tried, List.map_map]
  refine congrArg (fun attempts => r.failed 0 attempts ++ _) (List.map_congr_left fun f hf => ?_)
  obtain ⟨answer, hsaid, heq⟩ := hstep.1 (hfailures f hf)
  rw [hsaid, ← Option.some.inj heq]
  rfl

theorem finishes_run {r : Retry} {retryable : ε → Bool} {step : Dialogue World (Except ε α)}
    (hstep : step.Finishes) : (r.run World.pause retryable step).Finishes := by
  intro said result h
  obtain ⟨_, _, _, rfl, -⟩ := course_run hstep h
  rfl

end Retry

/-- A request that was made until it was given up: the failures that came first, and the last
answer. -/
structure Trial where
  request : ObjectStore.Request
  failures : List ObjectStore.Error
  last : Except ObjectStore.Error request.Reply

namespace Trial

/-- What is said in a trial: the same request each time. -/
def said (t : Trial) (r : Retry) (c : Client) : List (Exchange World) :=
  r.failed 0 (t.failures.map fun e => [c.exchange t.request (.error e)]) ++
    [c.exchange t.request t.last]

/-- Whether a trial was given up when it had to be, and not before. -/
def Given (t : Trial) (r : Retry) : Prop := r.Given (·.isRetryable) t.failures t.last

end Trial

theorem course_run_send {r : Retry} {c : Client} {request : ObjectStore.Request}
    {said : List (Exchange World)} {result : Option (Except ObjectStore.Error request.Reply)}
    (h : Course (r.run World.pause (·.isRetryable) (c.send request)) said result) :
    ∃ failures last, said = (⟨request, failures, last⟩ : Trial).said r c ∧
      (⟨request, failures, last⟩ : Trial).Given r ∧ result = some last :=
  Retry.course_run_exchange Dialogue.course_send h

/-- A request that a provisioner makes until it is given up. -/
theorem Provisioner.course_persist {p : Provisioner} {step : Step} {bucket : String} {c : Client}
    {request : ObjectStore.Request} {said : List (Exchange World)}
    {result : Option (Except Error request.Reply)}
    (h : Course (p.persist step bucket (c.send request)) said result) :
    ∃ failures last, said = (⟨request, failures, last⟩ : Trial).said p.retry c ∧
      (⟨request, failures, last⟩ : Trial).Given p.retry ∧
      result = some (last.mapError (.store step bucket)) := by
  have hfinishes := Dialogue.finishes_send c request
  obtain ⟨first, rest, answer, rfl, hrun, hend⟩ :=
    (Retry.finishes_run hfinishes).course_bind.1 h
  obtain ⟨failures, _, rfl, hgiven, heq⟩ := course_run_send hrun
  obtain rfl := Option.some.inj heq
  cases answer with
  | ok a =>
    obtain ⟨rfl, rfl⟩ := Dialogue.course_pure.1 hend
    exact ⟨failures, .ok a, List.append_nil _, hgiven, rfl⟩
  | error e =>
    obtain ⟨rfl, rfl⟩ := Dialogue.course_pure.1 hend
    exact ⟨failures, .error e, List.append_nil _, hgiven, rfl⟩

theorem Provisioner.finishes_persist (p : Provisioner) (step : Step) (bucket : String) (c : Client)
    (request : ObjectStore.Request) : (p.persist step bucket (c.send request)).Finishes := by
  intro said result h
  obtain ⟨_, _, -, -, rfl⟩ := course_persist h
  rfl

theorem Provisioner.course_persist_ok {p : Provisioner} {step : Step} {bucket : String} {c : Client}
    {request : ObjectStore.Request} {said : List (Exchange World)} {reply : request.Reply}
    (h : Course (p.persist step bucket (c.send request)) said (some (.ok reply))) :
    ∃ failures, said = (⟨request, failures, .ok reply⟩ : Trial).said p.retry c ∧
      (⟨request, failures, .ok reply⟩ : Trial).Given p.retry := by
  obtain ⟨failures, last, hsaid, hgiven, heq⟩ := course_persist h
  cases last with
  | error e => cases heq
  | ok answer =>
    obtain rfl : reply = answer := Except.ok.inj (Option.some.inj heq)
    exact ⟨failures, hsaid, hgiven⟩

/-- What needs a client goes on if there is one. -/
theorem Provisioner.runs_client_bind {α : Type} {endpoint bucket : String} {kept : Clients}
    {f : Client → Task Error α} {said : List (Exchange World)}
    {result : Option (Except Error α × Clients)}
    (h : (client endpoint bucket >>= f).Runs kept said result) :
    (∃ opening c rest kept', said = opening ++ rest ∧
      Clients.Obtained kept endpoint opening (.ok c) ∧ (f c).Runs kept' rest result) ∨
    ∃ cause kept', Clients.Obtained kept endpoint said (.error cause) ∧
      result = some (.error (.store .resolveClient bucket cause), kept') := by
  have hclient : ∀ said result, (client endpoint bucket).Runs kept said result →
      ∃ found kept', Clients.Obtained kept endpoint said found ∧
        result = some (found.mapError (.store .resolveClient bucket), kept') := by
    intro said result h
    obtain ⟨_, hobtain, rfl⟩ := Task.runs_describing.1 h
    obtain ⟨found, kept', rfl, hfound⟩ := Clients.runs_obtain hobtain
    exact ⟨found, kept', hfound, rfl⟩
  rcases Task.runs_bind.1 h with ⟨opening, rest, c, kept', rfl, hfirst, hrest⟩ |
    ⟨e, kept', hfirst, rfl⟩ | ⟨hfirst, -⟩
  · obtain ⟨found, _, hfound, heq⟩ := hclient _ _ hfirst
    cases found with
    | error e => cases heq
    | ok c' =>
      obtain rfl : c = c' := Except.ok.inj (Prod.mk.inj (Option.some.inj heq)).1
      exact .inl ⟨opening, c, rest, kept', rfl, hfound, hrest⟩
  · obtain ⟨found, _, hfound, heq⟩ := hclient _ _ hfirst
    cases found with
    | ok c => cases heq
    | error cause =>
      obtain rfl := Except.error.inj (Prod.mk.inj (Option.some.inj heq)).1
      exact .inr ⟨cause, kept', hfound, rfl⟩
  · obtain ⟨_, _, -, heq⟩ := hclient _ _ hfirst
    exact absurd heq (by simp)

end BucketTransfer.Provision
