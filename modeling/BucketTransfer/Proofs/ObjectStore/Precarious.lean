import BucketTransfer.Proofs.ObjectStore.Exchanges

/-!
# Stores that fail at any call

A call may fail before it has its effect or after it. Of a bucket that is taken away with such calls
some objects are left, as they were, or it is gone.
-/
namespace BucketTransfer.ObjectStore.Memory

/-- How a store may deal with a request when any call can fail, with or without its effect. -/
inductive Handles (m : Memory) : (r : Request) → Except Error r.Reply → Memory → Prop where
  | answered {r : Request} {answer : Except Error r.Reply} {n : Memory}
      (answered : m.answer r = (answer, n)) : Handles m r answer n
  /-- The request did not come through. -/
  | unheard (r : Request) (e : Error) : Handles m r (.error e) m
  /-- The answer did not come through. -/
  | unanswered (r : Request) (e : Error) : Handles m r (.error e) (m.answer r).2
  /-- Some keys of a batch could not be deleted. -/
  | partly {bucket : String} {keys : List String} (deleted : List String) (result : DeleteResult)
      (errors : result.errors ≠ []) :
      Handles m (.deleteObjects bucket keys) (.ok result)
        (m.answer (.deleteObjects bucket deleted)).2

/-- What an exchange does to a store that may fail at any call. -/
def Precariously (m : Memory) (e : Exchange World) (n : Memory) : Prop :=
  match e with
  | ⟨.request _ r, answer⟩ => m.Handles r answer n
  | _ => n = m

/-- The requests that a bucket is taken away with. -/
inductive Dismantles (bucket : String) : Request → Prop where
  | list (marker : Option String) : Dismantles bucket (.listObjects bucket "" marker)
  | empty (keys : List String) : Dismantles bucket (.deleteObjects bucket keys)
  | delete : Dismantles bucket (.deleteBucket bucket)

/-- What is left of a bucket, if anything, was there before. -/
structure Remains (m : Memory) (bucket : String) (n : Memory) : Prop where
  pageSize : n.pageSize = m.pageSize
  left : ∀ left, n.buckets.get? bucket = some left → ∃ objects,
    m.buckets.get? bucket = some objects ∧
      ∀ key body, left.get? key = some body → objects.get? key = some body
  others : ∀ b, b ≠ bucket → n.buckets.get? b = m.buckets.get? b

variable {m n n' : Memory} {bucket : String} {r : Request} {c : Client}
  {said : List (Exchange World)}

/-- What a request does to a bucket that is taken away, and to no other one. -/
theorem buckets_answer_of_dismantles (m : Memory) (h : Dismantles bucket r) :
    (m.answer r).2.buckets = m.buckets ∨
      (∃ objects keys, m.buckets.get? bucket = some objects ∧
        (m.answer r).2.buckets = m.buckets.insert bucket (objects.eraseAll keys)) ∨
      r = .deleteBucket bucket ∧ (m.answer r).2.buckets = m.buckets.erase bucket := by
  obtain ⟨n, halike, -, ⟨e, heq⟩ | heq⟩ := m.answer_cases r
  · rw [heq]
    exact .inl halike.buckets
  · rw [heq, ← halike.buckets]
    cases h with
    | list marker =>
      simp only [effect]
      split
      · exact .inl rfl
      · exact .inl rfl
    | empty keys =>
      simp only [effect]
      split
      · exact .inl rfl
      · split
        · exact .inl rfl
        · rename_i objects hobjects
          exact .inr (.inl ⟨objects, keys, hobjects, rfl⟩)
    | delete =>
      simp only [effect]
      split
      · exact .inl rfl
      · split
        · exact .inr (.inr ⟨trivial, rfl⟩)
        · exact .inl rfl

/-- What a store makes of a request that can fail is what it makes of one that is answered, or
nothing. -/
theorem Handles.eq_or_exists {answer : Except Error r.Reply} (h : m.Handles r answer n)
    (hr : Dismantles bucket r) :
    n = m ∨ ∃ r', Dismantles bucket r' ∧ n = (m.answer r').2 ∧
      (r' = .deleteBucket bucket → r = .deleteBucket bucket) := by
  cases h with
  | answered answered => exact .inr ⟨r, hr, by rw [answered], id⟩
  | unheard r e => exact .inl rfl
  | unanswered r e => exact .inr ⟨r, hr, rfl, id⟩
  | partly deleted result errors =>
    cases hr with
    | empty keys => exact .inr ⟨_, .empty deleted, rfl, fun heq => nomatch heq⟩

namespace Remains

theorem refl (m : Memory) (bucket : String) : Remains m bucket m :=
  ⟨rfl, fun left hleft => ⟨left, hleft, fun _ _ hbody => hbody⟩, fun _ _ => rfl⟩

theorem answer (h : Remains m bucket n) (hr : Dismantles bucket r) :
    Remains m bucket (n.answer r).2 := by
  have hsize : (n.answer r).2.pageSize = m.pageSize := (n.pageSize_answer r).trans h.pageSize
  rcases n.buckets_answer_of_dismantles hr with hsame | ⟨held, keys, hheld, hless⟩ | ⟨-, hgone⟩
  · exact ⟨hsize, by rw [hsame]; exact h.left, by rw [hsame]; exact h.others⟩
  · obtain ⟨objects, hobjects, hsub⟩ := h.left held hheld
    refine ⟨hsize, fun left hleft => ⟨objects, hobjects, fun key body hbody => ?_⟩, fun b hb => ?_⟩
    · rw [hless, KeyMap.get?_insert_self] at hleft
      rw [← Option.some.inj hleft, KeyMap.get?_eraseAll] at hbody
      split at hbody
      · exact absurd hbody (by simp)
      · exact hsub key body hbody
    · rw [hless, KeyMap.get?_insert_of_ne hb, h.others b hb]
  · refine ⟨hsize, fun left hleft => ?_, fun b hb => ?_⟩
    · rw [hgone, KeyMap.get?_erase, if_pos rfl] at hleft
      exact absurd hleft (by simp)
    · rw [hgone, KeyMap.get?_erase, if_neg hb, h.others b hb]

/-- No more objects are left than there were. -/
theorem size_le (h : Remains m bucket n) {objects left : KeyMap Bytes}
    (hobjects : m.buckets.get? bucket = some objects)
    (hleft : n.buckets.get? bucket = some left) : left.size ≤ objects.size := by
  obtain ⟨held, hheld, hsub⟩ := h.left left hleft
  obtain rfl := Option.some.inj (hobjects.symm.trans hheld)
  refine KeyMap.size_le fun key hkey => ?_
  obtain ⟨body, hbody⟩ := Option.isSome_iff_exists.1 hkey
  rw [hsub key body hbody]
  rfl

end Remains

/-- Requests that can fail and that a bucket is taken away with. -/
def Dismantling (bucket : String) (e : Exchange World) : Prop :=
  ∀ c r, e.question = .request c r → Dismantles bucket r

/-- What each request keeps that a bucket is taken away with, an exchange keeps. -/
theorem Precariously.keeps {P : Memory → Prop} {e : Exchange World} (h : m.Precariously e n)
    (he : Dismantling bucket e) (hm : P m)
    (hanswer : ∀ r, Dismantles bucket r →
      (r = .deleteBucket bucket → ∃ c, e.question = .request c (.deleteBucket bucket)) →
        P (m.answer r).2) : P n := by
  obtain ⟨q, answer⟩ := e
  cases q with
  | request c r =>
    rcases Handles.eq_or_exists h (he c r rfl) with rfl | ⟨r', hr', rfl, hdelete⟩
    · exact hm
    · exact hanswer r' hr' fun heq => ⟨c, congrArg _ (hdelete heq)⟩
  | _ =>
    obtain rfl : n = m := h
    exact hm

theorem remains_of_leads (h : Leads Precariously m said n)
    (hsaid : ∀ e ∈ said, Dismantling bucket e) : Remains m bucket n :=
  h.invariant (Remains.refl m bucket) fun e he _ _ hs hstep =>
    hstep.keeps (hsaid e he) hs fun _ hr _ => hs.answer hr

/-- A bucket stays that is never asked to be deleted. -/
theorem isSome_of_leads (h : Leads Precariously m said n)
    (hsaid : ∀ e ∈ said, Dismantling bucket e) (hm : (m.buckets.get? bucket).isSome)
    (hnever : ∀ e ∈ said, ∀ c, e.question ≠ .request c (.deleteBucket bucket)) :
    (n.buckets.get? bucket).isSome := by
  refine h.invariant (P := fun s => (s.buckets.get? bucket).isSome) hm fun e he s t hs hstep => ?_
  refine hstep.keeps (P := fun s => (s.buckets.get? bucket).isSome) (hsaid e he) hs
    fun r hr hdelete => ?_
  rcases s.buckets_answer_of_dismantles hr with hsame | ⟨objects, keys, -, hless⟩ | ⟨heq, -⟩
  · rwa [hsame]
  · rw [hless, KeyMap.get?_insert_self]
    rfl
  · obtain ⟨c, hquestion⟩ := hdelete heq
    exact absurd hquestion (hnever e he c)

/-- A bucket that is gone stays gone. -/
private theorem none_of_leads (h : Leads Precariously m said n)
    (hsaid : ∀ e ∈ said, Dismantling bucket e) (hm : m.buckets.get? bucket = none) :
    n.buckets.get? bucket = none := by
  refine h.invariant (P := fun s => s.buckets.get? bucket = none) hm fun e he s t hs hstep => ?_
  refine hstep.keeps (P := fun s => s.buckets.get? bucket = none) (hsaid e he) hs
    fun r hr _ => ?_
  rcases s.buckets_answer_of_dismantles hr with hsame | ⟨objects, keys, hheld, -⟩ | ⟨-, hgone⟩
  · rwa [hsame]
  · rw [hs] at hheld
    exact absurd hheld (by simp)
  · rw [hgone, KeyMap.get?_erase, if_pos rfl]

/-- A bucket is gone once its deletion was answered. -/
theorem none_of_deleted (h : Leads Precariously m said n)
    (hsaid : ∀ e ∈ said, Dismantling bucket e)
    (hdeleted : c.exchange (.deleteBucket bucket) (.ok ()) ∈ said) :
    n.buckets.get? bucket = none := by
  obtain ⟨before, after, rfl⟩ := List.append_of_mem hdeleted
  obtain ⟨_, -, hrest⟩ := leads_append.1 h
  obtain ⟨mid, hdelete, hafter⟩ := leads_cons.1 hrest
  refine none_of_leads hafter (fun e he => hsaid e (by simp [he])) ?_
  cases hdelete with
  | answered answered =>
    obtain ⟨hbuckets, -⟩ := deleteBucket_ok answered
    rw [hbuckets, KeyMap.get?_erase, if_pos rfl]

end BucketTransfer.ObjectStore.Memory
