/-!
# Dialogues

A computation that asks questions and goes on with the answers. Who answers is left open, so that
a statement about a dialogue is one about all that may answer it, at any time and in any way.
-/
namespace BucketTransfer

/-- Questions, and what the answer to each is. -/
structure Interface where
  Question : Type
  Answer : Question → Type

/-- A dialogue ends with a value, asks a question, or is cut off. -/
inductive Dialogue (I : Interface) (α : Type) where
  | done (value : α)
  | ask (question : I.Question) (next : I.Answer question → Dialogue I α)
  | unfinished

namespace Dialogue
variable {I : Interface} {α β γ : Type}

/-- Goes on with the value that a dialogue ends with. -/
def bind (d : Dialogue I α) (f : α → Dialogue I β) : Dialogue I β :=
  match d with
  | done a => f a
  | ask q next => ask q fun a => (next a).bind f
  | unfinished => unfinished

instance : Monad (Dialogue I) where
  pure := done
  bind := bind

theorem bind_done (d : Dialogue I α) : d.bind done = d := by
  induction d with
  | done => rfl
  | ask q next ih => exact congrArg (ask q) (funext ih)
  | unfinished => rfl

theorem bind_bind (d : Dialogue I α) (f : α → Dialogue I β) (g : β → Dialogue I γ) :
    (d.bind f).bind g = d.bind fun a => (f a).bind g := by
  induction d with
  | done => rfl
  | ask q next ih => exact congrArg (ask q) (funext ih)
  | unfinished => rfl

instance : LawfulMonad (Dialogue I) :=
  .mk' _
    bind_done
    (fun _ _ => rfl)
    bind_bind

/-- A question and nothing else. -/
def question (q : I.Question) : Dialogue I (I.Answer q) := ask q done

/-- The same dialogue with questions to somebody else in place of each question. -/
def relay {J : Interface} (ask : (q : I.Question) → Dialogue J (I.Answer q)) :
    Dialogue I α → Dialogue J α
  | done a => .done a
  | .ask q next => (ask q).bind fun a => (next a).relay ask
  | unfinished => .unfinished

/-- Leads a dialogue with somebody who answers; there is no value if it is cut off. -/
def run {m : Type → Type} [Monad m] (answer : (q : I.Question) → m (I.Answer q)) :
    Dialogue I α → m (Option α)
  | done a => pure (some a)
  | ask q next => do (next (← answer q)).run answer
  | unfinished => pure none

end Dialogue

end BucketTransfer
