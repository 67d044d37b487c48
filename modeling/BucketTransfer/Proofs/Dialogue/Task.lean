import BucketTransfer.Clients
import BucketTransfer.Proofs.Dialogue.Leads
import BucketTransfer.Proofs.Dialogue.Course
import BucketTransfer.Proofs.KeyMap.Lookup

/-!
# The course of a task

What is said in a task, and what it comes to with the clients that are kept then. A failure ends a
task at once.
-/
namespace BucketTransfer
open Dialogue (Course)

/-- A request and the answer to it. -/
def Client.exchange (c : Client) (r : ObjectStore.Request)
    (answer : Except ObjectStore.Error r.Reply) : Exchange World := ⟨.request c r, answer⟩

namespace Dialogue
variable {α : Type} {c : Client} {r : ObjectStore.Request} {said : List (Exchange World)}

theorem course_send {result : Option (Except ObjectStore.Error r.Reply)} :
    Course (c.send r) said result ↔
      ∃ answer, said = [c.exchange r answer] ∧ result = some answer :=
  course_question

theorem finishes_send (c : Client) (r : ObjectStore.Request) : (c.send r).Finishes := by
  intro said result h
  obtain ⟨answer, -, rfl⟩ := course_send.1 h
  rfl

theorem course_send_bind {f : Except ObjectStore.Error r.Reply → Dialogue World α}
    {result : Option α} :
    Course (c.send r >>= f) said result ↔
      ∃ answer rest, said = c.exchange r answer :: rest ∧ Course (f answer) rest result :=
  course_question_bind

end Dialogue

namespace Task
variable {ε δ α β : Type} {kept : Clients} {said : List (Exchange World)}

/-- What a task comes to with some clients kept. -/
def Runs (t : Task ε α) (kept : Clients) (said : List (Exchange World))
    (result : Option (Except ε α × Clients)) : Prop := Course (t.run kept) said result

theorem runs_pure {a : α} {result : Option (Except ε α × Clients)} :
    Runs (pure a : Task ε α) kept said result ↔ said = [] ∧ result = some (.ok a, kept) :=
  Dialogue.course_pure

theorem runs_throw {e : ε} {result : Option (Except ε α × Clients)} :
    Runs (throw e : Task ε α) kept said result ↔ said = [] ∧ result = some (.error e, kept) :=
  Dialogue.course_pure

theorem runs_bind {t : Task ε α} {f : α → Task ε β} {result : Option (Except ε β × Clients)} :
    Runs (t >>= f) kept said result ↔
      (∃ first second a kept', said = first ++ second ∧ Runs t kept first (some (.ok a, kept')) ∧
        Runs (f a) kept' second result) ∨
      (∃ e kept', Runs t kept said (some (.error e, kept')) ∧
        result = some (.error e, kept')) ∨
      (Runs t kept said none ∧ result = none) := by
  change Course (t.run kept >>= fun p => ExceptT.bindCont f p.1 p.2) said result ↔ _
  rw [Dialogue.course_bind, ← or_assoc]
  refine or_congr_left ?_
  constructor
  · rintro ⟨first, second, ⟨_ | a, kept'⟩, rfl, ht, hf⟩
    · obtain ⟨rfl, rfl⟩ := Dialogue.course_pure.1 hf
      rw [List.append_nil]
      exact .inr ⟨_, kept', ht, rfl⟩
    · exact .inl ⟨first, second, a, kept', rfl, ht, hf⟩
  · rintro (⟨first, second, a, kept', rfl, ht, hf⟩ | ⟨e, kept', ht, rfl⟩)
    · exact ⟨first, second, (.ok a, kept'), rfl, ht, hf⟩
    · exact ⟨said, [], (.error e, kept'), (List.append_nil said).symm, ht,
        Dialogue.course_pure.2 ⟨rfl, rfl⟩⟩

theorem runs_attempt {describe : δ → ε} {d : Dialogue World (Except δ α)}
    {result : Option (Except ε α × Clients)} :
    Runs (attempt describe d) kept said result ↔
      (∃ a, Course d said (some (.ok a)) ∧ result = some (.ok a, kept)) ∨
      (∃ e, Course d said (some (.error e)) ∧ result = some (.error (describe e), kept)) ∨
      (Course d said none ∧ result = none) := by
  change Course (d >>= _) said result ↔ _
  rw [Dialogue.course_bind, ← or_assoc]
  refine or_congr_left ?_
  constructor
  · rintro ⟨first, second, _ | a, rfl, hd, hend⟩
    · obtain ⟨rfl, rfl⟩ := Dialogue.course_pure.1 hend
      rw [List.append_nil]
      exact .inr ⟨_, hd, rfl⟩
    · obtain ⟨rfl, rfl⟩ := Dialogue.course_pure.1 hend
      rw [List.append_nil]
      exact .inl ⟨a, hd, rfl⟩
  · rintro (⟨a, hd, rfl⟩ | ⟨e, hd, rfl⟩)
    · exact ⟨said, [], .ok a, (List.append_nil said).symm, hd, Dialogue.course_pure.2 ⟨rfl, rfl⟩⟩
    · exact ⟨said, [], .error e, (List.append_nil said).symm, hd,
        Dialogue.course_pure.2 ⟨rfl, rfl⟩⟩

theorem runs_attempt_bind {describe : δ → ε} {d : Dialogue World (Except δ α)} {f : α → Task ε β}
    {result : Option (Except ε β × Clients)} :
    Runs (attempt describe d >>= f) kept said result ↔
      (∃ first second a, said = first ++ second ∧ Course d first (some (.ok a)) ∧
        Runs (f a) kept second result) ∨
      (∃ e, Course d said (some (.error e)) ∧ result = some (.error (describe e), kept)) ∨
      (Course d said none ∧ result = none) := by
  simp only [runs_bind, runs_attempt]
  constructor
  · rintro (⟨first, second, a, kept', rfl, ht, hf⟩ | ⟨e, kept', ht, rfl⟩ | ⟨ht, rfl⟩)
    · rcases ht with ⟨a', hd, heq⟩ | ⟨_, -, heq⟩ | ⟨-, heq⟩
      · obtain ⟨rfl, rfl⟩ : a = a' ∧ kept' = kept := by simpa using heq
        exact .inl ⟨first, second, a, rfl, hd, hf⟩
      · exact absurd heq (by simp)
      · exact absurd heq (by simp)
    · rcases ht with ⟨_, -, heq⟩ | ⟨e', hd, heq⟩ | ⟨-, heq⟩
      · exact absurd heq (by simp)
      · obtain ⟨rfl, rfl⟩ : e = describe e' ∧ kept' = kept := by simpa using heq
        exact .inr (.inl ⟨e', hd, rfl⟩)
      · exact absurd heq (by simp)
    · rcases ht with ⟨_, -, heq⟩ | ⟨_, -, heq⟩ | ⟨hd, -⟩
      · exact absurd heq (by simp)
      · exact absurd heq (by simp)
      · exact .inr (.inr ⟨hd, rfl⟩)
  · rintro (⟨first, second, a, rfl, hd, hf⟩ | ⟨e, hd, rfl⟩ | ⟨hd, rfl⟩)
    · exact .inl ⟨first, second, a, kept, rfl, .inl ⟨a, hd, rfl⟩, hf⟩
    · exact .inr (.inl ⟨_, kept, .inr (.inl ⟨e, hd, rfl⟩), rfl⟩)
    · exact .inr (.inr ⟨.inr (.inr ⟨hd, trivial⟩), rfl⟩)

theorem runs_attempt_bind_of_finishes {describe : δ → ε} {d : Dialogue World (Except δ α)}
    {f : α → Task ε β} {result : Option (Except ε β × Clients)} (hd : d.Finishes) :
    Runs (attempt describe d >>= f) kept said result ↔
      (∃ first second a, said = first ++ second ∧ Course d first (some (.ok a)) ∧
        Runs (f a) kept second result) ∨
      (∃ e, Course d said (some (.error e)) ∧ result = some (.error (describe e), kept)) := by
  rw [runs_attempt_bind, ← or_assoc, or_iff_left]
  rintro ⟨hcourse, -⟩
  simpa using hd hcourse

theorem runs_ask_bind {q : World.Question} {f : q.Answer → Task ε β}
    {result : Option (Except ε β × Clients)} :
    Runs (ask (.question (I := World) q) >>= f) kept said result ↔
      ∃ answer rest, said = ⟨q, answer⟩ :: rest ∧ Runs (f answer) kept rest result :=
  Dialogue.course_ask

theorem runs_describing {describe : δ → ε} {t : Task δ α} {result : Option (Except ε α × Clients)} :
    Runs (t.describing describe) kept said result ↔
      ∃ outcome, Runs t kept said outcome ∧
        result = outcome.map fun (answer, kept) => (answer.mapError describe, kept) := by
  change Course (t.run kept >>= _) said result ↔ _
  rw [Dialogue.course_bind]
  constructor
  · rintro (⟨first, second, ⟨_ | a, kept'⟩, rfl, ht, hend⟩ | ⟨ht, rfl⟩)
    · obtain ⟨rfl, rfl⟩ := Dialogue.course_pure.1 hend
      rw [List.append_nil]
      exact ⟨_, ht, rfl⟩
    · obtain ⟨rfl, rfl⟩ := Dialogue.course_pure.1 hend
      rw [List.append_nil]
      exact ⟨_, ht, rfl⟩
    · exact ⟨none, ht, rfl⟩
  · rintro ⟨_ | ⟨_ | a, kept'⟩, ht, rfl⟩
    · exact .inr ⟨ht, rfl⟩
    · exact .inl ⟨said, [], _, (List.append_nil said).symm, ht, Dialogue.course_pure.2 ⟨rfl, rfl⟩⟩
    · exact .inl ⟨said, [], _, (List.append_nil said).symm, ht, Dialogue.course_pure.2 ⟨rfl, rfl⟩⟩

/-- A success is the same in other words. -/
theorem runs_describing_ok {describe : δ → ε} {t : Task δ α} {a : α} {kept' : Clients} :
    Runs (t.describing describe) kept said (some (.ok a, kept')) ↔
      Runs t kept said (some (.ok a, kept')) := by
  rw [runs_describing]
  constructor
  · rintro ⟨_ | ⟨_ | value, last⟩, hrun, heq⟩
    · exact absurd heq (by simp)
    · exact absurd (congrArg Prod.fst (Option.some.inj heq)) (by simp [Except.mapError])
    · cases heq
      exact hrun
  · intro hrun
    exact ⟨_, hrun, rfl⟩

section Success
variable {kept' : Clients}

/-- A task succeeds exactly if each of its steps does. -/
theorem runs_bind_ok {t : Task ε α} {f : α → Task ε β} {b : β} :
    Runs (t >>= f) kept said (some (.ok b, kept')) ↔
      ∃ first second a mid, said = first ++ second ∧ Runs t kept first (some (.ok a, mid)) ∧
        Runs (f a) mid second (some (.ok b, kept')) := by
  rw [runs_bind]
  constructor
  · rintro (h | ⟨e, mid, -, heq⟩ | ⟨-, heq⟩)
    · exact h
    · exact absurd heq (by simp)
    · exact absurd heq (by simp)
  · exact .inl

theorem runs_attempt_ok {describe : δ → ε} {d : Dialogue World (Except δ α)} {a : α} :
    Runs (attempt describe d) kept said (some (.ok a, kept')) ↔
      Course d said (some (.ok a)) ∧ kept' = kept := by
  rw [runs_attempt]
  constructor
  · rintro (⟨a', hd, heq⟩ | ⟨e, -, heq⟩ | ⟨-, heq⟩)
    · obtain ⟨rfl, rfl⟩ : a = a' ∧ kept' = kept := by simpa using heq
      exact ⟨hd, rfl⟩
    · exact absurd heq (by simp)
    · exact absurd heq (by simp)
  · rintro ⟨hd, rfl⟩
    exact .inl ⟨a, hd, rfl⟩

/-- What is settled already comes to a value without a word. -/
theorem runs_settled_ok {outcome : Except ε α} {a : α} :
    Runs (ExceptT.mk (pure outcome) : Task ε α) kept said (some (.ok a, kept')) ↔
      outcome = .ok a ∧ said = [] ∧ kept' = kept := by
  refine Dialogue.course_pure.trans ?_
  constructor
  · rintro ⟨rfl, heq⟩
    obtain ⟨rfl, rfl⟩ := Prod.mk.inj (Option.some.inj heq)
    exact ⟨rfl, rfl, rfl⟩
  · rintro ⟨rfl, rfl, rfl⟩
    exact ⟨rfl, rfl⟩

theorem runs_pure_ok {a b : α} :
    Runs (pure a : Task ε α) kept said (some (.ok b, kept')) ↔
      b = a ∧ said = [] ∧ kept' = kept := by
  refine runs_settled_ok.trans ?_
  rw [Except.ok.injEq, eq_comm]

end Success

section Questions
variable {P Q : World.Question → Prop}

/-- A task that asks only some questions, whatever clients are kept. -/
def Asks (P : World.Question → Prop) (t : Task ε α) : Prop := ∀ kept, (t.run kept).Asks P

theorem Asks.mono {t : Task ε α} (h : t.Asks P) (hPQ : ∀ q, P q → Q q) : t.Asks Q :=
  fun kept => (h kept).mono hPQ

/-- Whatever is said, it is what may be asked. -/
theorem Asks.of_runs {t : Task ε α} {result : Option (Except ε α × Clients)} (h : t.Asks P)
    (hruns : t.Runs kept said result) : ∀ e ∈ said, P e.question :=
  (h kept).of_course hruns

theorem asks_settled (outcome : Except ε α) : Asks P (ExceptT.mk (pure outcome) : Task ε α) :=
  fun kept => .done (outcome, kept)

theorem Asks.bind {t : Task ε α} {f : α → Task ε β} (ht : t.Asks P)
    (hf : ∀ value, (f value).Asks P) : (t >>= f).Asks P := by
  intro kept
  refine Dialogue.Asks.bind (ht kept) ?_
  rintro ⟨_ | value, kept⟩
  · exact .done _
  · exact hf value kept

theorem asks_attempt {describe : δ → ε} {d : Dialogue World (Except δ α)} (h : d.Asks P) :
    (attempt describe d).Asks P := by
  intro kept
  refine Dialogue.Asks.bind h ?_
  rintro (_ | value) <;> exact .done _

theorem asks_ask {d : Dialogue World α} (h : d.Asks P) : (ask d : Task ε α).Asks P :=
  fun _ => Dialogue.Asks.bind h fun _ => .done _

theorem Asks.describing {t : Task δ α} (h : t.Asks P) (describe : δ → ε) :
    (t.describing describe).Asks P := by
  intro kept
  refine Dialogue.Asks.bind (h kept) ?_
  rintro ⟨_ | value, kept⟩ <;> exact .done _

end Questions

end Task

namespace Clients

/-- How the client for an endpoint is come by: it is kept, or it is asked for. -/
inductive Obtained (kept : Clients) (endpoint : String) :
    List (Exchange World) → Except ObjectStore.Error Client → Prop where
  | kept (c : Client) (there : kept.get? endpoint = some c) : Obtained kept endpoint [] (.ok c)
  | made (absent : kept.get? endpoint = none) (answer : Except ObjectStore.Error Client) :
      Obtained kept endpoint [⟨.connect endpoint none, answer⟩] answer

theorem Obtained.eq_of_mem {kept : Clients} {endpoint : String} {said : List (Exchange World)}
    {found : Except ObjectStore.Error Client} (h : Obtained kept endpoint said found)
    {e : Exchange World} (he : e ∈ said) : e = ⟨.connect endpoint none, found⟩ := by
  cases h with
  | kept c there => exact absurd he List.not_mem_nil
  | made absent answer => exact List.mem_singleton.1 he

/-- Getting a client leads nowhere if a new client changes nothing. -/
theorem Obtained.eq_of_leads {S : Type} {step : S → Exchange World → S → Prop} {s t : S}
    {kept : Clients} {endpoint : String} {said : List (Exchange World)}
    {found : Except ObjectStore.Error Client} (h : Obtained kept endpoint said found)
    (hs : Leads step s said t)
    (hconnect : ∀ s t, step s ⟨.connect endpoint none, found⟩ t → t = s) : t = s := by
  apply hs.eq_of_idle
  intro e he s t hstep
  obtain rfl := h.eq_of_mem he
  exact hconnect s t hstep

/-- The clients that are kept once the one for an endpoint was come by. -/
def after (kept : Clients) (endpoint : String) : Except ObjectStore.Error Client → Clients
  | .ok c => kept.insert endpoint c
  | .error _ => kept

theorem runs_obtain_iff {kept : Clients} {endpoint : String} {said : List (Exchange World)}
    {result : Option (Except ObjectStore.Error Client × Clients)} :
    (Clients.obtain endpoint).Runs kept said result ↔
      ∃ found, Obtained kept endpoint said found ∧
        result = some (found, kept.after endpoint found) := by
  simp only [Task.Runs, obtain, ExceptT.run_mk]
  cases hget : kept.get? endpoint with
  | some c =>
    have hsame : kept.after endpoint (.ok c) = kept := KeyMap.insert_of_get?_eq_some hget
    refine Dialogue.course_pure.trans ⟨?_, ?_⟩
    · rintro ⟨rfl, rfl⟩
      exact ⟨.ok c, .kept c hget, by rw [hsame]⟩
    · rintro ⟨_, ⟨c', there⟩ | ⟨absent, -⟩, rfl⟩
      · obtain rfl := Option.some.inj (hget.symm.trans there)
        exact ⟨rfl, by rw [hsame]⟩
      · exact absurd (hget.symm.trans absent) (by simp)
  | none =>
    refine Dialogue.course_question_bind.trans ⟨?_, ?_⟩
    · rintro ⟨answer, rest, rfl, hrest⟩
      cases answer with
      | error e =>
        obtain ⟨rfl, rfl⟩ := Dialogue.course_pure.1 hrest
        exact ⟨.error e, .made hget (.error e), rfl⟩
      | ok c =>
        obtain ⟨rfl, rfl⟩ := Dialogue.course_pure.1 hrest
        exact ⟨.ok c, .made hget (.ok c), rfl⟩
    · rintro ⟨answer, ⟨c, there⟩ | ⟨absent, -⟩, rfl⟩
      · exact absurd (hget.symm.trans there) (by simp)
      · refine ⟨answer, [], rfl, ?_⟩
        cases answer with
        | error e => exact Dialogue.course_pure.2 ⟨rfl, rfl⟩
        | ok c => exact Dialogue.course_pure.2 ⟨rfl, rfl⟩

theorem runs_obtain {kept : Clients} {endpoint : String} {said : List (Exchange World)}
    {result : Option (Except ObjectStore.Error Client × Clients)}
    (h : (Clients.obtain endpoint).Runs kept said result) :
    ∃ found kept', result = some (found, kept') ∧ Obtained kept endpoint said found := by
  obtain ⟨found, hfound, rfl⟩ := runs_obtain_iff.1 h
  exact ⟨found, _, rfl, hfound⟩

end Clients

namespace Transfer

/-- An answer to whatever the world is asked, from one who has nothing to say. -/
def noAnswer : (q : World.Question) → q.Answer
  | .request _ _ => .error (.transport "")
  | .connect .. => .error (.transport "")
  | .issueToken _ => .error (.transport "")
  | .resolveSecret _ => .ok none
  | .storeSecret .. => .ok ()
  | .deleteSecret _ => .ok false
  | .file (.inspect _) | .file (.read _) | .file (.write ..) | .file (.createDirectories _)
  | .file (.rename ..) => .error .absent
  | .pause _ => ()
  | .now => (0 : Int)
  | .random => []

end Transfer

end BucketTransfer
