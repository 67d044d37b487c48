/-!
# The latest at a place

Values are put to places one after the other, and each place holds the latest that was put there. So
a value is lost exactly if a different one follows it to its place.
-/
namespace BucketTransfer

variable {α κ β : Type} {l : List α}

/-- Of those that go to one place there is a last one. -/
theorem exists_latest (place : α → κ) {x : α} (h : x ∈ l) :
    ∃ earlier final later, l = earlier ++ final :: later ∧ place final = place x ∧
      ∀ y ∈ later, place y ≠ place final := by
  induction l generalizing x with
  | nil => exact absurd h List.not_mem_nil
  | cons first rest ih =>
    by_cases hlater : ∃ y ∈ rest, place y = place x
    · obtain ⟨y, hy, hplace⟩ := hlater
      obtain ⟨earlier, final, later, rfl, hfinal, hothers⟩ := ih hy
      exact ⟨first :: earlier, final, later, rfl, hfinal.trans hplace, hothers⟩
    · have hothers : ∀ y ∈ rest, place y ≠ place x := fun y hy heq => hlater ⟨y, hy, heq⟩
      obtain rfl : x = first := (List.mem_cons.1 h).resolve_right fun hx => hothers x hx rfl
      exact ⟨[], x, rest, rfl, rfl, hothers⟩

/-- What one more that is put first adds: it is the latest at its place if no other one follows. -/
theorem latest_cons (place : α → κ) {Holds : α → Prop} {x : α}
    (hfirst : (∀ y ∈ l, place y ≠ place x) → Holds x)
    (hrest : ∀ earlier y later, l = earlier ++ y :: later → (∀ z ∈ later, place z ≠ place y) →
      Holds y)
    (earlier : List α) (y : α) (later : List α) (hsplit : x :: l = earlier ++ y :: later)
    (hlater : ∀ z ∈ later, place z ≠ place y) : Holds y := by
  cases earlier with
  | nil =>
    obtain ⟨rfl, rfl⟩ := List.cons.inj hsplit
    exact hfirst hlater
  | cons first earlier => exact hrest earlier y later (List.cons.inj hsplit).2 hlater

/-- All values are held where they were put exactly if those that went to one place are the same. -/
theorem forall_holds_iff (place : α → κ) (value : α → β) (Holds : κ → β → Prop)
    (hunique : ∀ k b c, Holds k b → Holds k c → b = c)
    (hlatest : ∀ earlier x later, l = earlier ++ x :: later → (∀ y ∈ later, place y ≠ place x) →
      Holds (place x) (value x)) :
    (∀ x ∈ l, Holds (place x) (value x)) ↔
      ∀ x ∈ l, ∀ y ∈ l, place x = place y → value x = value y := by
  constructor
  · intro hall x hx y hy hplace
    exact hunique _ _ _ (hall x hx) (hplace ▸ hall y hy)
  · intro hsame x hx
    obtain ⟨earlier, final, later, hsplit, hplace, hothers⟩ := exists_latest place hx
    have hfinal : final ∈ l := hsplit ▸ List.mem_append_right _ List.mem_cons_self
    have hholds := hlatest earlier final later hsplit hothers
    rwa [hsame final hfinal x hx hplace, hplace] at hholds

end BucketTransfer
