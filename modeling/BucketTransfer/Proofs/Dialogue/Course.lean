import BucketTransfer.Dialogue

/-!
# The course of a dialogue

What is said in a dialogue, one exchange after the other, and what the dialogue comes to. Whoever
answers may answer anything: a statement about every course is one about all that may answer. A
dialogue cannot tell two apart that answer each of its questions alike and stay related by what the
questions do to them.
-/
namespace BucketTransfer

/-- A question and the answer that it got. -/
structure Exchange (I : Interface) where
  question : I.Question
  answer : I.Answer question

namespace Dialogue
variable {I : Interface} {α β : Type}

/-- The ways a dialogue can go: what is said in it, and the value that it ends with, if any. -/
inductive Course : Dialogue I α → List (Exchange I) → Option α → Prop where
  | done (value : α) : Course (done value) [] (some value)
  | ask {question : I.Question} {next : I.Answer question → Dialogue I α} {said : List (Exchange I)}
      {result : Option α} (answer : I.Answer question) (rest : Course (next answer) said result) :
      Course (ask question next) (⟨question, answer⟩ :: said) result
  | unfinished : Course unfinished [] none

/-- Leads a dialogue with somebody whose answers may depend on all that was said before. -/
def converse (answer : List (Exchange I) → (q : I.Question) → I.Answer q) :
    Dialogue I α → List (Exchange I) → List (Exchange I) × Option α
  | done value, _ => ([], some value)
  | ask q next, past =>
    let exchange : Exchange I := ⟨q, answer past q⟩
    let (said, result) := (next exchange.answer).converse answer (past ++ [exchange])
    (exchange :: said, result)
  | .unfinished, _ => ([], none)

theorem course_converse (answer : List (Exchange I) → (q : I.Question) → I.Answer q)
    (d : Dialogue I α) (past : List (Exchange I)) :
    Course d (d.converse answer past).1 (d.converse answer past).2 := by
  induction d generalizing past with
  | done value => exact .done value
  | ask q next ih => exact .ask (answer past q) (ih (answer past q) _)
  | unfinished => exact .unfinished

variable {d : Dialogue I α} {f : α → Dialogue I β} {said : List (Exchange I)}

section Converse
variable {answer : List (Exchange I) → (q : I.Question) → I.Answer q} {past : List (Exchange I)}

/-- Where a dialogue comes to a value, the one that goes on with it is led on. -/
theorem converse_bind {value : α} (h : d.converse answer past = (said, some value)) :
    (d >>= f).converse answer past =
      (said ++ ((f value).converse answer (past ++ said)).1,
        ((f value).converse answer (past ++ said)).2) := by
  change (d.bind f).converse answer past = _
  induction d generalizing past said with
  | done a =>
    obtain ⟨rfl, heq⟩ := Prod.mk.inj h
    obtain rfl := Option.some.inj heq
    rw [List.append_nil]
    rfl
  | ask q next ih =>
    obtain ⟨rfl, hvalue⟩ := Prod.mk.inj h
    have hrest := ih (answer past q) (Prod.ext rfl hvalue)
    simp only [Dialogue.bind, converse, hrest, List.cons_append, List.append_assoc,
      List.nil_append]
  | unfinished => cases h

theorem converse_bind_of_cut (h : d.converse answer past = (said, none)) :
    (d >>= f).converse answer past = (said, none) := by
  change (d.bind f).converse answer past = _
  induction d generalizing past said with
  | done a => cases h
  | ask q next ih =>
    obtain ⟨rfl, hnone⟩ := Prod.mk.inj h
    have hrest := ih (answer past q) (Prod.ext rfl hnone)
    simp only [Dialogue.bind, converse, hrest]
  | unfinished =>
    obtain ⟨rfl, -⟩ := Prod.mk.inj h
    rfl

end Converse

@[simp] theorem course_done {value : α} {result : Option α} :
    Course (done value : Dialogue I α) said result ↔ said = [] ∧ result = some value := by
  constructor
  · rintro ⟨⟩
    exact ⟨rfl, rfl⟩
  · rintro ⟨rfl, rfl⟩
    exact .done value

@[simp] theorem course_pure {value : α} {result : Option α} :
    Course (pure value : Dialogue I α) said result ↔ said = [] ∧ result = some value :=
  course_done

@[simp] theorem course_unfinished {result : Option α} :
    Course (unfinished : Dialogue I α) said result ↔ said = [] ∧ result = none := by
  constructor
  · rintro ⟨⟩
    exact ⟨rfl, rfl⟩
  · rintro ⟨rfl, rfl⟩
    exact .unfinished

theorem course_ask {q : I.Question} {next : I.Answer q → Dialogue I α} {result : Option α} :
    Course (ask q next) said result ↔
      ∃ answer rest, said = ⟨q, answer⟩ :: rest ∧ Course (next answer) rest result := by
  constructor
  · rintro ⟨⟩
    exact ⟨_, _, rfl, ‹_›⟩
  · rintro ⟨answer, rest, rfl, h⟩
    exact .ask answer h

/-- A dialogue that goes on with the value of another one says what both say; it is cut off where
the first one is. -/
theorem course_bind {result : Option β} :
    Course (d >>= f) said result ↔
      (∃ first second value, said = first ++ second ∧ Course d first (some value) ∧
        Course (f value) second result) ∨ (Course d said none ∧ result = none) := by
  change Course (d.bind f) said result ↔ _
  induction d generalizing said with
  | done value =>
    simp only [Dialogue.bind, course_done, Option.some.injEq, reduceCtorEq, and_false, false_and,
      or_false]
    constructor
    · intro h
      exact ⟨[], said, value, rfl, ⟨rfl, rfl⟩, h⟩
    · rintro ⟨_, second, _, rfl, ⟨rfl, rfl⟩, h⟩
      exact h
  | ask q next ih =>
    simp only [Dialogue.bind, course_ask, ih]
    constructor
    · rintro ⟨answer, rest, rfl, ⟨first, second, value, rfl, hd, hf⟩ | ⟨hd, rfl⟩⟩
      · exact .inl ⟨_ :: first, second, value, rfl, ⟨answer, first, rfl, hd⟩, hf⟩
      · exact .inr ⟨⟨answer, rest, rfl, hd⟩, rfl⟩
    · rintro (⟨_, second, value, rfl, ⟨answer, first, rfl, hd⟩, hf⟩ |
        ⟨⟨answer, rest, rfl, hd⟩, rfl⟩)
      · exact ⟨answer, first ++ second, rfl, .inl ⟨first, second, value, rfl, hd, hf⟩⟩
      · exact ⟨answer, rest, rfl, .inr ⟨hd, rfl⟩⟩
  | unfinished => simp [Dialogue.bind]

theorem course_question_bind {q : I.Question} {f : I.Answer q → Dialogue I β} {result : Option β} :
    Course (question q >>= f) said result ↔
      ∃ answer rest, said = ⟨q, answer⟩ :: rest ∧ Course (f answer) rest result :=
  course_ask

theorem course_question {q : I.Question} {result : Option (I.Answer q)} :
    Course (question q) said result ↔ ∃ answer, said = [⟨q, answer⟩] ∧ result = some answer := by
  simp only [question, course_ask, course_done]
  constructor
  · rintro ⟨answer, rest, rfl, rfl, rfl⟩
    exact ⟨answer, rfl, rfl⟩
  · rintro ⟨answer, rfl, rfl⟩
    exact ⟨answer, [], rfl, rfl, rfl⟩

/-- A dialogue that is never cut off. -/
def Finishes (d : Dialogue I α) : Prop := ∀ ⦃said result⦄, Course d said result → result.isSome

theorem finishes_pure {value : α} : (pure value : Dialogue I α).Finishes := by
  intro said result h
  obtain ⟨-, rfl⟩ := course_pure.1 h
  rfl

theorem finishes_question {q : I.Question} : (question q).Finishes := by
  intro said result h
  obtain ⟨answer, -, rfl⟩ := course_question.1 h
  rfl

theorem Finishes.course_bind (h : d.Finishes) {result : Option β} :
    Course (d >>= f) said result ↔
      ∃ first second value, said = first ++ second ∧ Course d first (some value) ∧
        Course (f value) second result := by
  rw [Dialogue.course_bind, or_iff_left]
  rintro ⟨hd, -⟩
  simpa using h hd

section Asks
variable {σ τ : Type} {P : I.Question → Prop}

/-- What follows a dialogue goes on from where that leaves the one who answers. -/
theorem run_bind (answer : (q : I.Question) → StateM σ (I.Answer q)) (d : Dialogue I α)
    (f : α → Dialogue I β) (s : σ) :
    (d >>= f).run answer s =
      match d.run answer s with
      | (some a, s) => (f a).run answer s
      | (none, s) => (none, s) := by
  change (d.bind f).run answer s = _
  induction d generalizing s with
  | done a => rfl
  | ask q next ih => exact ih (answer q s).1 (answer q s).2
  | unfinished => rfl

/-- A dialogue that asks only some questions. -/
inductive Asks (P : I.Question → Prop) : Dialogue I α → Prop where
  | done (value : α) : Asks P (done value)
  | ask {q : I.Question} {next : I.Answer q → Dialogue I α} (asked : P q)
      (rest : ∀ answer, Asks P (next answer)) : Asks P (ask q next)
  | unfinished : Asks P unfinished

theorem asks_trivial (d : Dialogue I α) : d.Asks fun _ => True := by
  induction d with
  | done value => exact .done value
  | ask q next ih => exact .ask trivial ih
  | unfinished => exact .unfinished

theorem Asks.mono {Q : I.Question → Prop} {d : Dialogue I α} (h : d.Asks P)
    (hPQ : ∀ q, P q → Q q) : d.Asks Q := by
  induction h with
  | done value => exact .done value
  | ask asked _ ih => exact .ask (hPQ _ asked) ih
  | unfinished => exact .unfinished

/-- Whatever is said, it is what may be asked. -/
theorem Asks.of_course {d : Dialogue I α} {said : List (Exchange I)} {result : Option α}
    (h : d.Asks P) (hcourse : Course d said result) : ∀ e ∈ said, P e.question := by
  induction hcourse with
  | done value => simp
  | ask answer _ ih =>
    cases h with
    | ask asked rest => exact List.forall_mem_cons.2 ⟨asked, ih (rest answer)⟩
  | unfinished => simp

theorem Asks.bind {d : Dialogue I α} {f : α → Dialogue I β} (hd : d.Asks P)
    (hf : ∀ value, (f value).Asks P) : (d >>= f).Asks P := by
  change (d.bind f).Asks P
  induction hd with
  | done value => exact hf value
  | ask asked _ ih => exact .ask asked ih
  | unfinished => exact .unfinished

/-- Two that answer each question alike, and stay related, make the same of a dialogue. -/
theorem Asks.run_alike {R : σ → τ → Prop} {answer : (q : I.Question) → StateM σ (I.Answer q)}
    {other : (q : I.Question) → StateM τ (I.Answer q)}
    (hanswer : ∀ q, P q → ∀ s t, R s t →
      (answer q s).1 = (other q t).1 ∧ R (answer q s).2 (other q t).2)
    {d : Dialogue I α} (hd : d.Asks P) {s : σ} {t : τ} (h : R s t) :
    (d.run answer s).1 = (d.run other t).1 ∧ R (d.run answer s).2 (d.run other t).2 := by
  induction hd generalizing s t with
  | done value => exact ⟨rfl, h⟩
  | @ask q next asked _ ih =>
    obtain ⟨hsame, hnext⟩ := hanswer q asked s t h
    change ((next (answer q s).1).run answer (answer q s).2).1 =
        ((next (other q t).1).run other (other q t).2).1 ∧
      R ((next (answer q s).1).run answer (answer q s).2).2
        ((next (other q t).1).run other (other q t).2).2
    rw [← hsame]
    exact ih _ hnext
  | unfinished => exact ⟨rfl, h⟩

end Asks

end Dialogue

end BucketTransfer
