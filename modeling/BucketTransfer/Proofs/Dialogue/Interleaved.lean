import BucketTransfer.Proofs.Dialogue.Leads
import Mathlib.Logic.Function.Basic

/-!
# Dialogues side by side

Several dialogues go on at once with somebody whom they share. At each time any one of them may ask
its next question, and who answers is where the last exchange left him, whichever dialogue that
was. What one dialogue has said begins one of its courses.
-/
namespace BucketTransfer
open Dialogue (Course)

variable {I : Interface} {S ι α : Type} [DecidableEq ι]

/-- What was said and by whom, what each dialogue has still to say, and the state reached. -/
inductive Interleaved (step : S → Exchange I → S → Prop) (ds : ι → Dialogue I α) (s : S) :
    List (ι × Exchange I) → (ι → Dialogue I α) → S → Prop where
  | start : Interleaved step ds s [] ds s
  | next {said : List (ι × Exchange I)} {left : ι → Dialogue I α} {t t' : S}
      (before : Interleaved step ds s said left t) (i : ι) {q : I.Question}
      {next : I.Answer q → Dialogue I α} (asks : left i = .ask q next) (answer : I.Answer q)
      (answered : step t ⟨q, answer⟩ t') :
      Interleaved step ds s (said ++ [(i, ⟨q, answer⟩)]) (Function.update left i (next answer)) t'

/-- What one of those who take part has said. -/
def saidBy (i : ι) (said : List (ι × Exchange I)) : List (Exchange I) :=
  (said.filter fun x => x.1 = i).map Prod.snd

section SaidBy
variable {i j : ι} {e : Exchange I} {said later : List (ι × Exchange I)}

@[simp] theorem saidBy_append :
    saidBy i (said ++ later) = saidBy i said ++ saidBy i later := by simp [saidBy]

theorem saidBy_cons_self : saidBy i ((i, e) :: said) = e :: saidBy i said := by simp [saidBy]

theorem saidBy_cons_of_ne (h : j ≠ i) : saidBy i ((j, e) :: said) = saidBy i said := by
  simp [saidBy, h]

theorem mem_saidBy : e ∈ saidBy i said ↔ (i, e) ∈ said := by
  simp [saidBy]

/-- What only one of those who take part says can be found in what this one has said. -/
theorem filterMap_saidBy {β : Type} {f : Exchange I → Option β}
    (h : ∀ j e, (j, e) ∈ said → j ≠ i → f e = none) :
    (saidBy i said).filterMap f = (said.map Prod.snd).filterMap f := by
  induction said with
  | nil => rfl
  | cons x said ih =>
    obtain ⟨j, e⟩ := x
    have hrest := ih fun j e he => h j e (List.mem_cons_of_mem _ he)
    by_cases hj : j = i
    · subst hj
      rw [saidBy_cons_self, List.map_cons, List.filterMap_cons, List.filterMap_cons, hrest]
    · have hnone : f e = none := h j e List.mem_cons_self hj
      rw [saidBy_cons_of_ne hj, List.map_cons, List.filterMap_cons_none hnone, hrest]

theorem exists_of_saidBy_eq {before after : List (Exchange I)}
    (h : saidBy i said = before ++ e :: after) :
    ∃ first last, said = first ++ (i, e) :: last ∧ saidBy i first = before ∧
      saidBy i last = after := by
  induction said generalizing before with
  | nil => simp [saidBy] at h
  | cons x said ih =>
    obtain ⟨j, y⟩ := x
    by_cases hj : j = i
    · subst hj
      rw [saidBy_cons_self] at h
      cases before with
      | nil =>
        obtain ⟨rfl, rfl⟩ := List.cons.inj h
        exact ⟨[], said, rfl, rfl, rfl⟩
      | cons z before =>
        obtain ⟨rfl, hrest⟩ := List.cons.inj h
        obtain ⟨first, last, rfl, rfl, hlast⟩ := ih hrest
        exact ⟨(j, y) :: first, last, rfl, saidBy_cons_self, hlast⟩
    · rw [saidBy_cons_of_ne hj] at h
      obtain ⟨first, last, rfl, hfirst, hlast⟩ := ih h
      exact ⟨(j, y) :: first, last, rfl, by rw [saidBy_cons_of_ne hj, hfirst], hlast⟩

end SaidBy

namespace Interleaved
variable {step : S → Exchange I → S → Prop} {ds left : ι → Dialogue I α} {s t : S}
  {said : List (ι × Exchange I)}

/-- All that is said leads from one state to the other, whoever says it. -/
theorem leads (h : Interleaved step ds s said left t) : Leads step s (said.map Prod.snd) t := by
  induction h with
  | start => exact .nil s
  | next before i asks answer answered ih =>
    rw [List.map_append]
    exact leads_append.2 ⟨_, ih, leads_singleton.2 answered⟩

/-- A dialogue goes on from what it has said. -/
theorem course (h : Interleaved step ds s said left t) {i : ι} {more : List (Exchange I)}
    {result : Option α} (hmore : Course (left i) more result) :
    Course (ds i) (saidBy i said ++ more) result := by
  induction h generalizing more with
  | start => exact hmore
  | @next said left _ _ before j q next asks answer answered ih =>
    rw [saidBy_append, List.append_assoc]
    apply ih
    by_cases hj : j = i
    · subst hj
      rw [Function.update_self] at hmore
      rw [asks, saidBy_cons_self]
      exact .ask answer hmore
    · rw [Function.update_of_ne (Ne.symm hj)] at hmore
      rw [saidBy_cons_of_ne hj]
      exact hmore

/-- A dialogue that has come to its end has followed one of its courses. -/
theorem course_of_done (h : Interleaved step ds s said left t) {i : ι} {value : α}
    (hdone : left i = .done value) : Course (ds i) (saidBy i said) (some value) := by
  have hend : Course (left i) [] (some value) := hdone ▸ .done value
  simpa using h.course hend

/-- What a dialogue has said can be gone on with if every question has an answer. -/
theorem exists_course (h : Interleaved step ds s said left t)
    (hanswer : ∀ q : I.Question, Nonempty (I.Answer q)) (i : ι) :
    ∃ more result, Course (ds i) (saidBy i said ++ more) result := by
  have hmore := Dialogue.course_converse (fun _ q => (hanswer q).some) (left i) []
  exact ⟨_, _, h.course hmore⟩

end Interleaved

section Turns
variable (answer : S → (q : I.Question) → I.Answer q × S)

/-- Lets dialogues ask in turn; one that is at its end misses its turn. -/
def takeTurns : List ι → (ι → Dialogue I α) → S → List (ι × Exchange I) × (ι → Dialogue I α) × S
  | [], left, s => ([], left, s)
  | i :: turns, left, s =>
    match left i with
    | .ask q next =>
      let (reply, t) := answer s q
      let (said, rest) := takeTurns turns (Function.update left i (next reply)) t
      ((i, ⟨q, reply⟩) :: said, rest)
    | _ => takeTurns turns left s

variable {answer} {step : S → Exchange I → S → Prop}

private theorem interleaved_of_turns
    (hstep : ∀ s q, step s ⟨q, (answer s q).1⟩ (answer s q).2) (turns : List ι)
    {ds left : ι → Dialogue I α} {s t : S} {said : List (ι × Exchange I)}
    (h : Interleaved step ds s said left t) :
    Interleaved step ds s (said ++ (takeTurns answer turns left t).1)
      (takeTurns answer turns left t).2.1 (takeTurns answer turns left t).2.2 := by
  induction turns generalizing left t said with
  | nil => simpa [takeTurns] using h
  | cons i turns ih =>
    rw [takeTurns]
    split
    · rename_i q next hasks
      have hnext := ih (h.next i hasks _ (hstep t q))
      rwa [List.append_assoc, List.singleton_append] at hnext
    · exact ih h

/-- Dialogues that take turns go on side by side. -/
theorem interleaved_takeTurns
    (hstep : ∀ s q, step s ⟨q, (answer s q).1⟩ (answer s q).2) (turns : List ι)
    (ds : ι → Dialogue I α) (s : S) :
    Interleaved step ds s (takeTurns answer turns ds s).1 (takeTurns answer turns ds s).2.1
      (takeTurns answer turns ds s).2.2 :=
  interleaved_of_turns hstep turns .start

end Turns

end BucketTransfer
