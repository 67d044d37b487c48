import BucketTransfer.Proofs.Dialogue.Rehearsal
import BucketTransfer.Proofs.Files.Disk
import BucketTransfer.Proofs.ObjectStore.Exchanges
import BucketTransfer.Proofs.Secrets.Keeper
import BucketTransfer.Services.InMemory

/-!
# Rehearsals with services in memory

What is said in a rehearsal leads the store and the secrets where the rehearsal leaves them.
-/
namespace BucketTransfer.Services.InMemory
open ObjectStore (Memory)
open Rehearsal (play Answers)
open Secrets (Keeper)

variable {w mid last : Rehearsal InMemory} {said : List (Exchange World)}

theorem play_send (w : Rehearsal InMemory) (c : Client) (r : ObjectStore.Request) :
    play (c.send r) w =
      (some (w.services.store.answer r).1,
        { w with services := { w.services with store := (w.services.store.answer r).2 } }) := rfl

private theorem steps_question {q : World.Question} {answer : q.Answer}
    (h : play (.question (I := World) q) w = (some answer, mid)) :
    w.services.store.Step ⟨q, answer⟩ mid.services.store ∧
      (Keeper.memory w.services.secrets).Step ⟨q, answer⟩ (.memory mid.services.secrets) := by
  obtain ⟨hanswer, rfl⟩ := Prod.mk.inj h
  cases q with
  | request c r =>
    obtain rfl := Option.some.inj hanswer
    exact ⟨rfl, rfl⟩
  | storeSecret key value =>
    obtain rfl := Option.some.inj hanswer
    exact ⟨rfl, .memory w.services.secrets⟩
  | deleteSecret key =>
    obtain rfl := Option.some.inj hanswer
    exact ⟨rfl, .memory w.services.secrets⟩
  | resolveSecret key =>
    obtain rfl := Option.some.inj hanswer
    exact ⟨rfl, rfl, rfl⟩
  | _ => exact ⟨rfl, rfl⟩

theorem leads_of_answers (h : Answers w said last) :
    Leads Memory.Step w.services.store said last.services.store ∧
      Leads Keeper.Step (.memory w.services.secrets) said (.memory last.services.secrets) := by
  induction h with
  | nil w => exact ⟨.nil _, .nil _⟩
  | cons answer rest ih =>
    obtain ⟨hstore, hsecrets⟩ := steps_question answer
    exact ⟨.cons hstore ih.1, .cons hsecrets ih.2⟩

private theorem step_question_disk {q : World.Question} {answer : q.Answer}
    (h : play (.question (I := World) q) w = (some answer, mid)) :
    w.machine.disk.Step ⟨q, answer⟩ mid.machine.disk := by
  obtain ⟨hanswer, rfl⟩ := Prod.mk.inj h
  cases q with
  | file q =>
    obtain rfl := Option.some.inj hanswer
    rfl
  | _ => rfl

/-- What is said leads the disk where the rehearsal leaves it. -/
theorem leads_disk_of_answers (h : Answers w said last) :
    Leads Files.Disk.Step w.machine.disk said last.machine.disk := by
  induction h with
  | nil w => exact .nil _
  | cons answer rest ih => exact .cons (step_question_disk answer) ih

private theorem attempt_eq {ε α : Type} (t : Task ε α) (w : Rehearsal InMemory) :
    Rehearsal.attempt t w =
      match play (t.run w.clients) w with
      | (some (outcome, kept), mid) => (some outcome, { mid with clients := kept })
      | (none, mid) => (none, mid) := by
  rcases hplay : play (t.run w.clients) w with ⟨_ | ⟨outcome, kept⟩, mid⟩
  all_goals
    simp only [Rehearsal.attempt, bind, StateT.bind, get, getThe, MonadStateOf.get, StateT.get,
      pure, hplay]
    rfl

/-- A task that comes to something ran, and what was said in it leads the store and the disk where
they are then. -/
theorem runs_of_attempt {ε α : Type} {t : Task ε α} {outcome : Except ε α}
    (h : Rehearsal.attempt t w = (some outcome, last)) :
    ∃ said kept, t.Runs w.clients said (some (outcome, kept)) ∧
      Leads Memory.Step w.services.store said last.services.store ∧
      Leads Files.Disk.Step w.machine.disk said last.machine.disk := by
  rw [attempt_eq] at h
  split at h
  · rename_i result kept mid hplay
    obtain ⟨heq, rfl⟩ := Prod.mk.inj h
    obtain rfl := Option.some.inj heq
    obtain ⟨said, hcourse, hsaid⟩ := Rehearsal.play_eq_some_iff.1 hplay
    have hdisk := leads_disk_of_answers hsaid
    exact ⟨said, kept, hcourse, (leads_of_answers hsaid).1, hdisk⟩
  · exact absurd (congrArg Prod.fst h) (by simp)

end BucketTransfer.Services.InMemory
