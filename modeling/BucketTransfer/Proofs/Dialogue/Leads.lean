import BucketTransfer.Proofs.Dialogue.Course

/-!
# Where a dialogue leads

Those who answer may change with each exchange. What an exchange does to them is a relation between
their states; what is said leads from one state to another if its exchanges do so one after the
other.
-/
namespace BucketTransfer

variable {I : Interface} {S : Type}

/-- What is said leads from one state to another, one exchange after the other. -/
inductive Leads (step : S → Exchange I → S → Prop) : S → List (Exchange I) → S → Prop where
  | nil (s : S) : Leads step s [] s
  | cons {s mid last : S} {e : Exchange I} {said : List (Exchange I)} (first : step s e mid)
      (rest : Leads step mid said last) : Leads step s (e :: said) last

variable {step : S → Exchange I → S → Prop} {s mid last : S} {e : Exchange I}
  {said later : List (Exchange I)} {P : S → Prop}

@[simp] theorem leads_nil : Leads step s [] last ↔ last = s := by
  constructor
  · rintro ⟨⟩
    rfl
  · rintro rfl
    exact .nil last

theorem leads_cons :
    Leads step s (e :: said) last ↔ ∃ mid, step s e mid ∧ Leads step mid said last := by
  constructor
  · rintro ⟨⟩
    exact ⟨_, ‹_›, ‹_›⟩
  · rintro ⟨mid, hfirst, hrest⟩
    exact .cons hfirst hrest

@[simp] theorem leads_singleton : Leads step s [e] last ↔ step s e last := by
  simp [leads_cons]

theorem leads_append :
    Leads step s (said ++ later) last ↔
      ∃ mid, Leads step s said mid ∧ Leads step mid later last := by
  induction said generalizing s with
  | nil => simp
  | cons e said ih =>
    simp only [List.cons_append, leads_cons, ih]
    constructor
    · rintro ⟨first, hfirst, mid, hsaid, hlater⟩
      exact ⟨mid, ⟨first, hfirst, hsaid⟩, hlater⟩
    · rintro ⟨mid, ⟨first, hfirst, hsaid⟩, hlater⟩
      exact ⟨first, hfirst, mid, hsaid, hlater⟩

namespace Leads

/-- What every exchange keeps true stays true, and was so at each exchange. -/
theorem keeping (h : Leads step s said last) (hs : P s)
    (hstep : ∀ e ∈ said, ∀ s t, P s → step s e t → P t) :
    Leads (fun s e t => P s ∧ step s e t) s said last ∧ P last := by
  induction h with
  | nil s => exact ⟨.nil s, hs⟩
  | cons first rest ih =>
    obtain ⟨hfirst, hothers⟩ := List.forall_mem_cons.1 hstep
    obtain ⟨hrest, hlast⟩ := ih (hfirst _ _ hs first) hothers
    exact ⟨.cons ⟨hs, first⟩ hrest, hlast⟩

theorem invariant (h : Leads step s said last) (hs : P s)
    (hstep : ∀ e ∈ said, ∀ s t, P s → step s e t → P t) : P last :=
  (h.keeping hs hstep).2

/-- Exchanges that change nothing lead nowhere. -/
theorem eq_of_idle (h : Leads step s said last) (hidle : ∀ e ∈ said, ∀ s t, step s e t → t = s) :
    last = s :=
  h.invariant (P := fun t => t = s) rfl fun e he _ _ heq hstep => (hidle e he _ _ hstep).trans heq

theorem mono {other : S → Exchange I → S → Prop} (h : Leads step s said last)
    (hstep : ∀ e ∈ said, ∀ s t, step s e t → other s e t) : Leads other s said last := by
  induction h with
  | nil s => exact .nil s
  | cons first rest ih =>
    obtain ⟨hfirst, hothers⟩ := List.forall_mem_cons.1 hstep
    exact .cons (hfirst _ _ first) (ih hothers)

/-- Each exchange was made somewhere on the way. -/
theorem exists_of_mem (h : Leads step s said last) (he : e ∈ said) : ∃ t t', step t e t' := by
  induction h with
  | nil s => exact absurd he List.not_mem_nil
  | cons first rest ih =>
    rcases List.mem_cons.1 he with rfl | he
    · exact ⟨_, _, first⟩
    · exact ih he

/-- If an exchange can lead to one state only, so can what is said. -/
theorem unique {mid' : S} (h : Leads step s said mid) (h' : Leads step s said mid')
    (hstep : ∀ s e t t', step s e t → step s e t' → t = t') : mid = mid' := by
  induction h with
  | nil s => exact (leads_nil.1 h').symm
  | cons first rest ih =>
    obtain ⟨_, hfirst, hrest⟩ := leads_cons.1 h'
    obtain rfl := hstep _ _ _ _ first hfirst
    exact ih hrest

end Leads

namespace Dialogue.Course
variable {α : Type} {result : Option α} {value : α} {q : I.Question}
  {f : I.Answer q → Dialogue I α}

/-- Nothing is said any more. -/
theorem of_pure (h : Course (pure value : Dialogue I α) said result) (hs : Leads step s said last) :
    result = some value ∧ last = s := by
  obtain ⟨rfl, rfl⟩ := course_pure.1 h
  exact ⟨rfl, leads_nil.1 hs⟩

/-- A question is answered, and the dialogue goes on from where that led. -/
theorem of_question (h : Course (question q >>= f) said result) (hs : Leads step s said last) :
    ∃ answer mid rest, step s ⟨q, answer⟩ mid ∧ Course (f answer) rest result ∧
      Leads step mid rest last := by
  obtain ⟨answer, rest, rfl, hrest⟩ := course_question_bind.1 h
  obtain ⟨mid, hfirst, hlater⟩ := leads_cons.1 hs
  exact ⟨answer, mid, rest, hfirst, hrest, hlater⟩

end Dialogue.Course

/-- A dialogue comes to one thing only with somebody whose answers, and what they lead to, are
settled by what has been said. -/
theorem Dialogue.Course.unique {α : Type} {d : Dialogue I α} {result result' : Option α} {last' : S}
    (h : Course d said result) (h' : Course d later result') (hs : Leads step s said last)
    (hs' : Leads step s later last')
    (hstep : ∀ e ∈ said, ∀ answer s t t', step s e t → step s ⟨e.question, answer⟩ t' →
      e.answer = answer ∧ t = t') : result = result' ∧ last = last' := by
  induction h generalizing s later with
  | done value =>
    obtain ⟨rfl, rfl⟩ := course_done.1 h'
    exact ⟨rfl, (leads_nil.1 hs).trans (leads_nil.1 hs').symm⟩
  | ask answer rest ih =>
    obtain ⟨answer', others, rfl, hrest⟩ := course_ask.1 h'
    obtain ⟨first, hfirst, hlater⟩ := leads_cons.1 hs
    obtain ⟨first', hfirst', hlater'⟩ := leads_cons.1 hs'
    obtain ⟨hhead, htail⟩ := List.forall_mem_cons.1 hstep
    obtain ⟨rfl, rfl⟩ := hhead answer' s first first' hfirst hfirst'
    exact ih hrest hlater hlater' htail
  | unfinished =>
    obtain ⟨rfl, rfl⟩ := course_unfinished.1 h'
    exact ⟨rfl, (leads_nil.1 hs).trans (leads_nil.1 hs').symm⟩

end BucketTransfer
