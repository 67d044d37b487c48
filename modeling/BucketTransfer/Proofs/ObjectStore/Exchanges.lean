import BucketTransfer.Proofs.Dialogue.Leads
import BucketTransfer.Proofs.Dialogue.Task
import BucketTransfer.Proofs.ObjectStore.Memory

/-!
# Exchanges with a store in memory

One store answers all requests, whichever client makes them; nothing else that is said concerns it.
-/
namespace BucketTransfer.ObjectStore.Memory

/-- What an exchange does to the store that requests go to. -/
def Step (m : Memory) (e : Exchange World) (n : Memory) : Prop :=
  match e with
  | ⟨.request _ r, answer⟩ => m.answer r = (answer, n)
  | _ => n = m

variable {m n n' : Memory} {c : Client} {r : Request} {e : Exchange World}

theorem step_exchange {answer : Except Error r.Reply} :
    m.Step (c.exchange r answer) n ↔ m.answer r = (answer, n) := Iff.rfl

/-- What is no request does not concern the store. -/
theorem Step.eq_of_aside (h : m.Step e n) (he : ∀ c r, e.question ≠ .request c r) : n = m := by
  obtain ⟨q, answer⟩ := e
  cases q with
  | request c r => exact absurd rfl (he c r)
  | _ => exact h

theorem Step.unique (h : m.Step e n) (h' : m.Step e n') : n = n' := by
  obtain ⟨q, answer⟩ := e
  cases q with
  | request c r => exact congrArg Prod.snd ((step_exchange (c := c)).1 h |>.symm.trans h')
  | _ => exact Eq.trans h (Eq.symm h')

/-- What every call keeps true of the store stays true, whatever is said. -/
theorem keeps_of_leads {P : Memory → Prop} (hP : ∀ m r, P m → P (m.answer r).2)
    {said : List (Exchange World)} (h : Leads Step m said n) (hm : P m) : P n := by
  refine h.invariant hm fun e _ s t hs hstep => ?_
  obtain ⟨q, answer⟩ := e
  cases q with
  | request c r =>
    have ht : (s.answer r).2 = t := congrArg Prod.snd ((step_exchange (c := c)).1 hstep)
    exact ht ▸ hP s r hs
  | _ =>
    obtain rfl : t = s := hstep
    exact hs

/-- A store that meets no fault for an operation does not come to meet one. -/
theorem unhindered_of_leads {operation : Operation} {said : List (Exchange World)}
    (h : Leads Step m said n) (hm : m.Unhindered operation) : n.Unhindered operation :=
  keeps_of_leads (P := fun s => s.Unhindered operation) (fun _ r hs => unhindered_answer hs r) h hm

theorem alike_answer_listObjects (m : Memory) (bucket keyPrefix : String)
    (marker : Option String) : m.Alike (m.answer (.listObjects bucket keyPrefix marker)).2 := by
  obtain ⟨n, halike, -, ⟨e, heq⟩ | heq⟩ := m.answer_cases (.listObjects bucket keyPrefix marker)
  · rw [heq]
    exact halike
  · rw [heq]
    simp only [effect]
    split
    · exact halike
    · exact halike

/-- A page that is answered is one of the bucket. -/
theorem listObjects_ok {bucket keyPrefix : String} {marker : Option String} {found : Page}
    (h : (m.answer (.listObjects bucket keyPrefix marker)).1 = .ok found) :
    ∃ objects, m.buckets.get? bucket = some objects ∧
      found = page objects.entries m.pageSize keyPrefix marker := by
  obtain ⟨n, halike, heffect⟩ := exists_effect_of_answer_ok (Prod.ext h rfl)
  simp only [effect, halike.buckets, halike.pageSize] at heffect
  split at heffect
  · exact absurd (congrArg Prod.fst heffect) (by simp)
  · rename_i objects hobjects
    exact ⟨objects, hobjects, (Except.ok.inj (congrArg Prod.fst heffect)).symm⟩

/-- An object that is answered is what the store holds. -/
theorem getObject_ok {bucket key : String} {body : Body}
    (h : m.answer (.getObject bucket key) = (.ok body, n)) :
    ∃ content, m.object? bucket key = some content ∧ body.stream = .ofBytes content := by
  obtain ⟨m', halike, heffect⟩ := exists_effect_of_answer_ok h
  simp only [effect, halike.buckets] at heffect
  split at heffect
  · exact absurd (congrArg Prod.fst heffect) (by simp)
  · rename_i objects hobjects
    split at heffect
    · exact absurd (congrArg Prod.fst heffect) (by simp)
    · rename_i content hcontent
      obtain rfl := Except.ok.inj (congrArg Prod.fst heffect)
      exact ⟨content, object?_eq_some.2 ⟨objects, hobjects, hcontent⟩, rfl⟩

end BucketTransfer.ObjectStore.Memory
