import BucketTransfer.Clients
import BucketTransfer.Proofs.Dialogue.Course
import Mathlib.Data.List.Forall2

/-!
# Dialogues side by side

Two dialogues run in parallel if they ask questions that go together and go on in parallel after
answers that go together. Nothing else is then said in the one than in the other, as long as those
who lead them answer in this way.
-/
namespace BucketTransfer

/-- Outcomes that go together: both succeed, or both fail in the same way. -/
inductive OutcomesAlike {ε α β : Type} (V : α → β → Prop) : Except ε α → Except ε β → Prop where
  | ok (a : α) (b : β) (together : V a b) : OutcomesAlike V (.ok a) (.ok b)
  | error (e : ε) : OutcomesAlike V (.error e) (.error e)

theorem OutcomesAlike.eq {ε α : Type} {x y : Except ε α} (h : OutcomesAlike Eq x y) : x = y := by
  cases h with
  | ok a b together => rw [together]
  | error e => rfl

theorem OutcomesAlike.refl {ε α : Type} {V : α → α → Prop} (h : ∀ a, V a a) (x : Except ε α) :
    OutcomesAlike V x x := by
  cases x with
  | ok a => exact .ok a a (h a)
  | error e => exact .error e

namespace Dialogue
variable {I : Interface} {α β γ δ : Type}

/-- Dialogues whose questions and values go together as long as the answers do. -/
inductive Parallel (Q : I.Question → I.Question → Prop) (R : Exchange I → Exchange I → Prop)
    (V : α → β → Prop) : Dialogue I α → Dialogue I β → Prop where
  | done (a : α) (b : β) (together : V a b) : Parallel Q R V (done a) (done b)
  | ask (q q' : I.Question) (next : I.Answer q → Dialogue I α) (next' : I.Answer q' → Dialogue I β)
      (together : Q q q')
      (rest : ∀ answer answer', R ⟨q, answer⟩ ⟨q', answer'⟩ →
        Parallel Q R V (next answer) (next' answer')) :
      Parallel Q R V (ask q next) (ask q' next')
  | unfinished : Parallel Q R V unfinished unfinished

variable {Q : I.Question → I.Question → Prop} {R : Exchange I → Exchange I → Prop}
  {V : α → β → Prop} {W : γ → δ → Prop}

theorem parallel_pure {a : α} {b : β} (h : V a b) :
    Parallel Q R V (pure a : Dialogue I α) (pure b) := .done a b h

theorem Parallel.bind {d : Dialogue I α} {d' : Dialogue I β} {f : α → Dialogue I γ}
    {f' : β → Dialogue I δ} (h : Parallel Q R V d d')
    (hf : ∀ a b, V a b → Parallel Q R W (f a) (f' b)) : Parallel Q R W (d >>= f) (d' >>= f') := by
  change Parallel Q R W (d.bind f) (d'.bind f')
  induction h with
  | done a b together => exact hf a b together
  | ask q q' next next' together rest ih => exact .ask q q' _ _ together ih
  | unfinished => exact .unfinished

theorem parallel_question {q : I.Question} {V : I.Answer q → I.Answer q → Prop} (hq : Q q q)
    (hr : ∀ answer answer', R ⟨q, answer⟩ ⟨q, answer'⟩ → V answer answer') :
    Parallel Q R V (question q) (question q) :=
  .ask q q _ _ hq fun answer answer' h => .done answer answer' (hr answer answer' h)

/-- What is said goes together, and so does what is come to in the end. -/
theorem Parallel.converse {d : Dialogue I α} {d' : Dialogue I β} (h : Parallel Q R V d d')
    {answer answer' : List (Exchange I) → (q : I.Question) → I.Answer q}
    (hanswer : ∀ past past' q q', List.Forall₂ R past past' → Q q q' →
      R ⟨q, answer past q⟩ ⟨q', answer' past' q'⟩)
    {past past' : List (Exchange I)} (hpast : List.Forall₂ R past past') :
    List.Forall₂ R (d.converse answer past).1 (d'.converse answer' past').1 ∧
      Option.Rel V (d.converse answer past).2 (d'.converse answer' past').2 := by
  induction h generalizing past past' with
  | done a b together => exact ⟨.nil, .some together⟩
  | ask q q' next next' together rest ih =>
    have hexchange := hanswer past past' q q' hpast together
    obtain ⟨hsaid, hresult⟩ :=
      ih _ _ hexchange (List.rel_append hpast (.cons hexchange .nil))
    exact ⟨.cons hexchange hsaid, hresult⟩
  | unfinished => exact ⟨.nil, .none⟩

end Dialogue

namespace Task
variable {ε δ α β α' β' : Type} {Q : World.Question → World.Question → Prop}
  {R : Exchange World → Exchange World → Prop} {V : α → α' → Prop} {W : β → β' → Prop}

/-- Tasks that run in parallel with the same clients kept, and keep the same ones. -/
def Parallel (Q : World.Question → World.Question → Prop)
    (R : Exchange World → Exchange World → Prop) (V : α → α' → Prop) (t : Task ε α)
    (t' : Task ε α') : Prop :=
  ∀ kept, Dialogue.Parallel (I := World) Q R
    (fun x y => OutcomesAlike V x.1 y.1 ∧ x.2 = y.2) (t.run kept) (t'.run kept)

theorem parallel_pure {a : α} {a' : α'} (h : V a a') :
    Parallel Q R V (pure a : Task ε α) (pure a') :=
  fun _ => .done _ _ ⟨.ok a a' h, rfl⟩

theorem parallel_throw (e : ε) : Parallel Q R V (throw e : Task ε α) (throw e) :=
  fun _ => .done _ _ ⟨.error e, rfl⟩

theorem Parallel.bind {t : Task ε α} {t' : Task ε α'} {f : α → Task ε β} {f' : α' → Task ε β'}
    (h : Parallel Q R V t t') (hf : ∀ a a', V a a' → Parallel Q R W (f a) (f' a')) :
    Parallel Q R W (t >>= f) (t' >>= f') := by
  intro kept
  refine (h kept).bind ?_
  rintro ⟨x, kept⟩ ⟨y, kept'⟩ ⟨hxy, rfl⟩
  cases hxy with
  | ok a a' together => exact hf a a' together kept
  | error e => exact .done _ _ ⟨.error e, rfl⟩

theorem parallel_attempt {describe : δ → ε} {d : Dialogue World (Except δ α)}
    {d' : Dialogue World (Except δ α')} (h : Dialogue.Parallel Q R (OutcomesAlike V) d d') :
    Parallel Q R V (attempt describe d) (attempt describe d') := by
  intro kept
  refine h.bind ?_
  intro x y hxy
  cases hxy with
  | ok a a' together => exact .done _ _ ⟨.ok a a' together, rfl⟩
  | error e => exact .done _ _ ⟨.error (describe e), rfl⟩

theorem parallel_ask {d : Dialogue World α} {d' : Dialogue World α'}
    (h : Dialogue.Parallel Q R V d d') : Parallel Q R V (ask d : Task ε α) (ask d') :=
  fun _ => h.bind fun a a' together => .done _ _ ⟨.ok a a' together, rfl⟩

theorem Parallel.describing {describe : δ → ε} {t : Task δ α} {t' : Task δ α'}
    (h : Parallel Q R V t t') :
    Parallel Q R V (t.describing describe) (t'.describing describe) := by
  intro kept
  refine (h kept).bind ?_
  rintro ⟨x, kept⟩ ⟨y, kept'⟩ ⟨hxy, rfl⟩
  cases hxy with
  | ok a a' together => exact .done _ _ ⟨.ok a a' together, rfl⟩
  | error e => exact .done _ _ ⟨.error (describe e), rfl⟩

/-- A client is come by in one way only if a new one is. -/
theorem parallel_obtain {endpoint : String}
    (hq : Q (.connect endpoint none) (.connect endpoint none))
    (hr : ∀ answer answer', R ⟨.connect endpoint none, answer⟩ ⟨.connect endpoint none, answer'⟩ →
      answer = answer') :
    Parallel Q R Eq (Clients.obtain endpoint) (Clients.obtain endpoint) := by
  intro kept
  simp only [Clients.obtain, ExceptT.run_mk]
  cases kept.get? endpoint with
  | some c => exact .done _ _ ⟨.ok c c rfl, rfl⟩
  | none =>
    refine (Dialogue.parallel_question hq hr).bind ?_
    rintro answer _ rfl
    cases answer with
    | error e => exact .done _ _ ⟨.error e, rfl⟩
    | ok c => exact .done _ _ ⟨.ok c c rfl, rfl⟩

end Task

end BucketTransfer
