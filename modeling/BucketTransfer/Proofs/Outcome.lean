import Mathlib.Data.List.Forall2

/-!
# Computations that may fail

What a computation came to tells what its steps came to.
-/
namespace BucketTransfer

variable {ε α β γ : Type}

/-- What goes on with a value succeeds only if there is one. -/
theorem exists_of_bind {x : Except ε α} {f : α → Except ε β} {b : β} (h : x >>= f = .ok b) :
    ∃ a, x = .ok a ∧ f a = .ok b := by
  cases x with
  | error e => cases h
  | ok a => exact ⟨a, rfl, h⟩

/-- A failure is that of the first step, or of what goes on with its value. -/
theorem bind_eq_error_iff {x : Except ε α} {f : α → Except ε β} {e : ε} :
    x >>= f = .error e ↔ x = .error e ∨ ∃ a, x = .ok a ∧ f a = .error e := by
  cases x with
  | error e' =>
    change Except.error e' = .error e ↔ _
    simp
  | ok a =>
    change f a = .error e ↔ _
    simp

section Forall₂
variable {R : α → β → Prop} {as : List α} {bs : List β}

theorem exists_of_forall₂ (h : List.Forall₂ R as bs) : ∀ b ∈ bs, ∃ a ∈ as, R a b := by
  induction h with
  | nil => simp
  | cons hab _ ih =>
    refine List.forall_mem_cons.2 ⟨⟨_, List.mem_cons_self, hab⟩, fun b hb => ?_⟩
    obtain ⟨a, ha, hab⟩ := ih b hb
    exact ⟨a, List.mem_cons_of_mem _ ha, hab⟩

theorem exists_forall₂_iff : (∃ bs, List.Forall₂ R as bs) ↔ ∀ a ∈ as, ∃ b, R a b := by
  induction as with
  | nil => simp
  | cons a as ih =>
    rw [List.forall_mem_cons, ← ih]
    constructor
    · rintro ⟨bs, hbs⟩
      obtain ⟨b, rest, hb, hrest, -⟩ := List.forall₂_cons_left_iff.1 hbs
      exact ⟨⟨b, hb⟩, rest, hrest⟩
    · rintro ⟨⟨b, hb⟩, rest, hrest⟩
      exact ⟨b :: rest, .cons hb hrest⟩

end Forall₂

/-- A list is gone through with success if each element is. -/
theorem mapM_eq_ok_iff {f : α → Except ε β} {as : List α} {bs : List β} :
    as.mapM f = .ok bs ↔ List.Forall₂ (fun a b => f a = .ok b) as bs := by
  constructor
  · intro h
    induction as generalizing bs with
    | nil => cases h; exact .nil
    | cons a as ih =>
      rw [List.mapM_cons] at h
      obtain ⟨b, hb, h⟩ := exists_of_bind h
      obtain ⟨rest, hrest, h⟩ := exists_of_bind h
      cases h
      exact .cons hb (ih hrest)
  · intro h
    induction h with
    | nil => rfl
    | cons hb _ ih => rw [List.mapM_cons, hb, ih]; rfl

/-- The first element that fails decides how a list fails. -/
theorem mapM_eq_error_iff {f : α → Except ε β} {as : List α} {e : ε} :
    as.mapM f = .error e ↔ ∃ before a after, as = before ++ a :: after ∧
      (∀ x ∈ before, ∃ b, f x = .ok b) ∧ f a = .error e := by
  induction as with
  | nil => simp [pure, Except.pure]
  | cons a as ih =>
    rw [List.mapM_cons, bind_eq_error_iff]
    constructor
    · rintro (ha | ⟨b, hb, hrest⟩)
      · exact ⟨[], a, as, rfl, by simp, ha⟩
      · have hfails : as.mapM f = .error e := by
          rcases bind_eq_error_iff.1 hrest with hfails | ⟨bs, -, hpure⟩
          · exact hfails
          · cases hpure
        obtain ⟨before, x, after, rfl, hbefore, hx⟩ := ih.1 hfails
        exact ⟨a :: before, x, after, rfl, List.forall_mem_cons.2 ⟨⟨b, hb⟩, hbefore⟩, hx⟩
    · rintro ⟨before, x, after, heq, hbefore, hx⟩
      cases before with
      | nil =>
        obtain ⟨rfl, rfl⟩ := List.cons.inj heq
        exact .inl hx
      | cons y before =>
        obtain ⟨rfl, rfl⟩ := List.cons.inj heq
        obtain ⟨⟨b, hb⟩, hrest⟩ := List.forall_mem_cons.1 hbefore
        exact .inr ⟨b, hb, bind_eq_error_iff.2 (.inl (ih.2 ⟨before, x, after, rfl, hrest, hx⟩))⟩

section Option
variable {f : α → Except ε β} {o : Option α} {r : Option β} {e : ε}

theorem option_mapM_eq_ok_iff : o.mapM f = .ok r ↔
    (o = none ∧ r = none) ∨ ∃ a b, o = some a ∧ f a = .ok b ∧ r = some b := by
  cases o with
  | none =>
    change Except.ok none = .ok r ↔ _
    simp [eq_comm]
  | some a =>
    constructor
    · intro h
      obtain ⟨b, hb, h⟩ := exists_of_bind h
      exact .inr ⟨a, b, rfl, hb, (Except.ok.inj h).symm⟩
    · rintro (⟨hnone, -⟩ | ⟨_, b, ⟨⟩, hb, rfl⟩)
      · cases hnone
      · change some <$> f a = .ok (some b)
        rw [hb]
        rfl

theorem option_mapM_eq_error_iff : o.mapM f = .error e ↔ ∃ a, o = some a ∧ f a = .error e := by
  cases o with
  | none =>
    change Except.ok none = .error e ↔ _
    simp
  | some a =>
    change some <$> f a = .error e ↔ _
    cases h : f a with
    | error e' =>
      change Except.error e' = .error e ↔ _
      simp [h]
    | ok b =>
      change Except.ok (some b) = .error e ↔ _
      simp [h]

end Option

/-- What can be read back tells what it came from. -/
theorem injective_of_read_back {f : α → β} {g : β → Option α} (h : ∀ a, g (f a) = some a) :
    Function.Injective f := by
  intro a b heq
  have hread := h a
  rw [heq, h b] at hread
  exact (Option.some.inj hread).symm

/-- What is undone element by element is undone. -/
theorem mapM_map_eq_some {f : α → β} {g : β → Option α} {as : List α}
    (h : ∀ a ∈ as, g (f a) = some a) : (as.map f).mapM g = some as := by
  induction as with
  | nil => rfl
  | cons a as ih =>
    obtain ⟨ha, has⟩ := List.forall_mem_cons.1 h
    rw [List.map_cons, List.mapM_cons, ha, ih has]
    rfl

/-- A view of the results that each element decides by itself. -/
theorem map_of_mapM {f : α → Except ε β} {view : β → γ} {shown : α → Option γ}
    (hstep : ∀ a b, f a = .ok b → shown a = some (view b)) {as : List α} {bs : List β}
    (h : as.mapM f = .ok bs) : bs.map view = as.filterMap shown := by
  induction as generalizing bs with
  | nil => cases h; rfl
  | cons a as ih =>
    rw [List.mapM_cons] at h
    obtain ⟨b, hb, h⟩ := exists_of_bind h
    obtain ⟨rest, hrest, h⟩ := exists_of_bind h
    cases h
    rw [List.map_cons, List.filterMap_cons_some (hstep a b hb), ih hrest]

end BucketTransfer
