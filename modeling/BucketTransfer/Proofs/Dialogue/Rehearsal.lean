import BucketTransfer.Proofs.Dialogue.Course
import BucketTransfer.Rehearsal

/-!
# The course of a rehearsal

What is said when services answer: each question is answered from where the one before it left the
services and the machine.
-/
namespace BucketTransfer
open Dialogue (Course)

namespace Rehearsal
variable {σ α β : Type} [Served σ]

/-- Services that answer what is asked, one question after the other. -/
inductive Answers : Rehearsal σ → List (Exchange World) → Rehearsal σ → Prop where
  | nil (w : Rehearsal σ) : Answers w [] w
  | cons {w mid last : Rehearsal σ} {e : Exchange World} {said : List (Exchange World)}
      (answer : play (.question e.question) w = (some e.answer, mid))
      (rest : Answers mid said last) : Answers w (e :: said) last

@[simp] theorem answers_nil {w last : Rehearsal σ} : Answers w [] last ↔ last = w := by
  constructor
  · rintro ⟨⟩
    rfl
  · rintro rfl
    exact .nil last

theorem answers_cons {w last : Rehearsal σ} {e : Exchange World} {said : List (Exchange World)} :
    Answers w (e :: said) last ↔
      ∃ mid, play (.question e.question) w = (some e.answer, mid) ∧ Answers mid said last := by
  constructor
  · rintro ⟨⟩
    exact ⟨_, ‹_›, ‹_›⟩
  · rintro ⟨mid, hanswer, hrest⟩
    exact .cons hanswer hrest

theorem answers_append {w last : Rehearsal σ} {said later : List (Exchange World)} :
    Answers w (said ++ later) last ↔ ∃ mid, Answers w said mid ∧ Answers mid later last := by
  induction said generalizing w with
  | nil => simp
  | cons e said ih =>
    simp only [List.cons_append, answers_cons, ih]
    constructor
    · rintro ⟨first, hanswer, mid, hsaid, hlater⟩
      exact ⟨mid, ⟨first, hanswer, hsaid⟩, hlater⟩
    · rintro ⟨mid, ⟨first, hanswer, hsaid⟩, hlater⟩
      exact ⟨first, hanswer, mid, hsaid, hlater⟩

theorem answers_cons_iff {w last : Rehearsal σ} {e : Exchange World}
    {said : List (Exchange World)} :
    Answers w (e :: said) last ↔ ∃ mid, Answers w [e] mid ∧ Answers mid said last := by
  rw [← answers_append, List.singleton_append]

/-- What services and a machine make of a dialogue. -/
private def lead (d : Dialogue World α) (s : σ) (m : Machine.Simulated) :
    Option (Option α × σ) × Machine.Simulated :=
  ((d.run Served.answer).run s).run Machine.Simulated.answer m

private theorem lead_ask (q : World.Question) (next : q.Answer → Dialogue World α) (s : σ)
    (m : Machine.Simulated) :
    lead (.ask (I := World) q next) s m =
      match ((Served.answer q).run s).run Machine.Simulated.answer m with
      | (some (answer, s), m) => lead (next answer) s m
      | (none, m) => (none, m) := by
  have h := Dialogue.run_bind Machine.Simulated.answer ((Served.answer q).run s)
    (fun p : q.Answer × σ => ((next p.1).run Served.answer).run p.2) m
  refine h.trans ?_
  rcases ((Served.answer q).run s).run Machine.Simulated.answer m with ⟨_ | ⟨answer, s⟩, m⟩
  · rfl
  · rfl

private theorem lead_question (q : World.Question) (s : σ) (m : Machine.Simulated) :
    lead (.question (I := World) q) s m =
      match ((Served.answer q).run s).run Machine.Simulated.answer m with
      | (some (answer, s), m) => (some (some answer, s), m)
      | (none, m) => (none, m) :=
  lead_ask q _ s m

private theorem play_eq_some {d : Dialogue World α} {value : α} {w last : Rehearsal σ} :
    play d w = (some value, last) ↔
      ∃ services machine, lead d w.services w.machine = (some (some value, services), machine) ∧
        last = { w with services, machine } := by
  change (match lead d w.services w.machine with
    | (some (value, services), machine) => (value, { w with services, machine })
    | (none, machine) => (none, { w with machine })) = (some value, last) ↔ _
  rcases lead d w.services w.machine with ⟨_ | ⟨_ | value', services⟩, machine⟩
  · simp
  · simp
  · constructor
    · intro h
      obtain ⟨heq, rfl⟩ := Prod.mk.inj h
      exact ⟨services, machine, by rw [heq], rfl⟩
    · rintro ⟨_, _, ⟨⟩, rfl⟩
      rfl

/-- A dialogue that begins with a question goes on from where the answer leaves the services. -/
theorem play_ask_eq_some {q : World.Question} {next : q.Answer → Dialogue World α} {value : α}
    {w last : Rehearsal σ} :
    play (.ask (I := World) q next) w = (some value, last) ↔
      ∃ answer mid, play (.question (I := World) q) w = (some answer, mid) ∧
        play (next answer) mid = (some value, last) := by
  simp only [play_eq_some, lead_question, lead_ask]
  rcases ((Served.answer q).run w.services).run Machine.Simulated.answer w.machine with
    ⟨_ | ⟨answer, services⟩, machine⟩
  · simp
  · constructor
    · rintro ⟨_, _, hnext, rfl⟩
      exact ⟨answer, { w with services, machine }, ⟨services, machine, rfl, rfl⟩, _, _, hnext, rfl⟩
    · rintro ⟨_, _, ⟨_, _, ⟨⟩, rfl⟩, _, _, hnext, rfl⟩
      exact ⟨_, _, hnext, rfl⟩

/-- A dialogue comes to a value exactly if what is answered leads it there. -/
theorem play_eq_some_iff {d : Dialogue World α} {value : α} {w last : Rehearsal σ} :
    play d w = (some value, last) ↔ ∃ said, Course d said (some value) ∧ Answers w said last := by
  constructor
  · intro h
    induction d generalizing w with
    | done a =>
      obtain ⟨heq, rfl⟩ := Prod.mk.inj h
      exact ⟨[], by simpa using heq.symm, .nil w⟩
    | ask q next ih =>
      obtain ⟨answer, mid, hanswer, hnext⟩ := play_ask_eq_some.1 h
      obtain ⟨said, hcourse, hsaid⟩ := ih answer hnext
      exact ⟨⟨q, answer⟩ :: said, .ask answer hcourse, .cons hanswer hsaid⟩
    | unfinished =>
      have hnone : none = some value := congrArg Prod.fst h
      exact absurd hnone (by simp)
  · rintro ⟨said, hcourse, hsaid⟩
    generalize hresult : some value = result at hcourse
    induction hcourse generalizing w with
    | done a =>
      obtain rfl := answers_nil.1 hsaid
      obtain rfl := Option.some.inj hresult
      rfl
    | ask answer _ ih =>
      subst hresult
      obtain ⟨mid, hanswer, hrest⟩ := answers_cons.1 hsaid
      exact play_ask_eq_some.2 ⟨answer, mid, hanswer, ih hrest rfl⟩
    | unfinished => exact absurd hresult (by simp)

/-- A dialogue that is never cut off comes to a value if each question gets an answer. -/
theorem exists_play_eq_some (hanswers : ∀ (q : World.Question) (w : Rehearsal σ),
      ∃ answer mid, play (.question (I := World) q) w = (some answer, mid))
    {d : Dialogue World α} (hd : d.Finishes) (w : Rehearsal σ) :
    ∃ value last, play d w = (some value, last) := by
  induction d generalizing w with
  | done a => exact ⟨a, w, rfl⟩
  | ask q next ih =>
    obtain ⟨answer, mid, hanswer⟩ := hanswers q w
    have hnext : (next answer).Finishes := fun _ _ h => hd (.ask answer h)
    obtain ⟨value, last, hlast⟩ := ih answer hnext mid
    exact ⟨value, last, play_ask_eq_some.2 ⟨answer, mid, hanswer, hlast⟩⟩
  | unfinished => exact absurd (hd .unfinished) (by simp)

/-- What comes after a dialogue goes on from where that leaves the services. -/
theorem play_bind {d : Dialogue World α} {f : α → Dialogue World β} {a : α} {value : β}
    {w mid last : Rehearsal σ} (hd : play d w = (some a, mid))
    (hf : play (f a) mid = (some value, last)) : play (d >>= f) w = (some value, last) := by
  obtain ⟨first, hfirst, hmid⟩ := play_eq_some_iff.1 hd
  obtain ⟨second, hsecond, hlast⟩ := play_eq_some_iff.1 hf
  exact play_eq_some_iff.2 ⟨first ++ second,
    Dialogue.course_bind.2 (.inl ⟨first, second, a, rfl, hfirst, hsecond⟩),
    answers_append.2 ⟨mid, hmid, hlast⟩⟩

end Rehearsal

end BucketTransfer
