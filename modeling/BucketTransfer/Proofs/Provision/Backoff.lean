import BucketTransfer.Rehearsal
import Mathlib.Algebra.Group.Nat.Defs
import Mathlib.Order.Bounds.Basic
import Mathlib.Order.Monotone.Basic

/-!
# How often and how long

Whatever the outcomes of a step are, it is tried up to the first one that settles it, unless no
attempt is left before. There is a wait between two attempts, none of which is shorter than the one
before it, or longer than the limit.
-/
namespace BucketTransfer.Provision.Retry

variable {ε α : Type}

/-- The outcome is a success, or a failure that may not pass. -/
def Settles (retryable : ε → Bool) (outcome : Except ε α) : Prop :=
  ∀ e, outcome = .error e → retryable e = false

section Waits
variable (r : Retry)

theorem delay_eq (n : Nat) :
    r.delay n = if r.backoff = .fixed then r.minDelay
      else min (r.minDelay * 2 ^ n) (max r.minDelay r.maxDelay) := by
  rw [delay]
  cases r.backoff with
  | fixed => rfl
  | exponential => rw [Nat.shiftLeft_eq, if_neg (by decide)]

theorem monotone_delay : Monotone r.delay := by
  intro m n hmn
  rw [delay_eq, delay_eq]
  split
  case isTrue => exact Nat.le_refl r.minDelay
  case isFalse =>
    have hpower : 2 ^ m ≤ 2 ^ n := Nat.pow_le_pow_right (by decide) hmn
    exact inf_le_inf_right _ (Nat.mul_le_mul_left r.minDelay hpower)

theorem delay_le (n : Nat) : r.delay n ≤ max r.minDelay r.maxDelay := by
  rw [delay_eq]
  split
  case isTrue => exact Nat.le_max_left ..
  case isFalse => exact Nat.min_le_right ..

end Waits

theorem Script.run_step (outcome : Nat → Except ε α) (n : Nat) (delays : List Nat) :
    (Script.step outcome).run ⟨n, delays⟩ = (outcome n, ⟨n + 1, delays⟩) := rfl

section Outcomes
variable {r : Retry} {retryable : ε → Bool} {outcome : Nat → Except ε α}

private theorem retryFrom_of_settles {left n : Nat} {delays : List Nat}
    (h : left = 0 ∨ Settles retryable (outcome n)) :
    (r.retryFrom Script.pause retryable (Script.step outcome) left n).run ⟨n, delays⟩ =
      (outcome n, ⟨n + 1, delays⟩) := by
  cases left with
  | zero => rfl
  | succ left =>
    have hsettles := h.resolve_left (Nat.succ_ne_zero left)
    rw [retryFrom, StateT.run_bind, Script.run_step]
    cases houtcome : outcome n with
    | ok a => rfl
    | error e =>
      simp only [bind, hsettles e houtcome]
      rfl

private theorem retryFrom_of_not_settles {left n : Nat} {delays : List Nat}
    (h : ¬Settles retryable (outcome n)) :
    (r.retryFrom Script.pause retryable (Script.step outcome) (left + 1) n).run ⟨n, delays⟩ =
      (r.retryFrom Script.pause retryable (Script.step outcome) left (n + 1)).run
        ⟨n + 1, r.delay n :: delays⟩ := by
  simp only [Settles, not_forall, Bool.not_eq_false] at h
  obtain ⟨e, houtcome, hretry⟩ := h
  rw [retryFrom, StateT.run_bind, Script.run_step, houtcome]
  simp only [bind, hretry]
  rfl

/-- So many outcomes in a row ask for another attempt, and then one settles the step or is that of
the last attempt. -/
private theorem exists_retryFrom (r : Retry) (retryable : ε → Bool) (outcome : Nat → Except ε α)
    (left n : Nat) (delays : List Nat) :
    ∃ k ≤ left, (∀ i < k, ¬Settles retryable (outcome (n + i))) ∧
      (k = left ∨ Settles retryable (outcome (n + k))) ∧
      (r.retryFrom Script.pause retryable (Script.step outcome) left n).run ⟨n, delays⟩ =
        (outcome (n + k), ⟨n + k + 1, ((List.range' n k).map r.delay).reverse ++ delays⟩) := by
  induction left generalizing n delays with
  | zero => exact ⟨0, Nat.le_refl 0, by simp, .inl rfl, retryFrom_of_settles (.inl rfl)⟩
  | succ left ih =>
    by_cases h : Settles retryable (outcome n)
    · exact ⟨0, Nat.zero_le _, by simp, .inr h, retryFrom_of_settles (.inr h)⟩
    · obtain ⟨k, hk, hfailed, hend, hrun⟩ := ih (n + 1) (r.delay n :: delays)
      refine ⟨k + 1, Nat.succ_le_succ hk, ?_, ?_, ?_⟩
      · intro i hi
        cases i with
        | zero => exact h
        | succ i =>
          rw [← Nat.add_assoc, Nat.add_right_comm]
          exact hfailed i (Nat.lt_of_succ_lt_succ hi)
      · rw [← Nat.add_assoc, Nat.add_right_comm]
        exact hend.imp_left (congrArg Nat.succ)
      · rw [retryFrom_of_not_settles h, hrun, ← Nat.add_assoc, Nat.add_right_comm n k,
          List.range'_succ]
        simp

end Outcomes

/-- A step whose outcomes are given one after the other is tried up to the first one that settles
it, or as often as it may be; there is one wait less than there are attempts. -/
theorem rehearse_of_outcomes (r : Retry) (retryable : ε → Bool) (outcome : Nat → Except ε α) :
    (∃ n, (∀ first, IsLeast {i | Settles retryable (outcome i)} first →
          n = min (first + 1) (max 1 r.attempts)) ∧
        ((∀ i, ¬Settles retryable (outcome i)) → n = max 1 r.attempts) ∧
        r.rehearse retryable outcome =
          (outcome (n - 1), ⟨n, ((List.range (n - 1)).map r.delay).reverse⟩)) ∧
      (∀ i, r.delay i = if r.backoff = .fixed then r.minDelay
        else min (r.minDelay * 2 ^ i) (max r.minDelay r.maxDelay)) ∧
      Monotone r.delay ∧ ∀ i, r.delay i ≤ max r.minDelay r.maxDelay := by
  refine ⟨?_, r.delay_eq, r.monotone_delay, r.delay_le⟩
  obtain ⟨k, hk, hfailed, hend, hrun⟩ := exists_retryFrom r retryable outcome (r.attempts - 1) 0 []
  simp only [Nat.zero_add] at hfailed hend hrun
  refine ⟨k + 1, ?_, ?_, ?_⟩
  · rintro first ⟨hfirst, hleast⟩
    have hle : k ≤ first := Nat.le_of_not_lt fun hlt => hfailed first hlt hfirst
    rcases hend with rfl | hsettles
    · omega
    · have hge : first ≤ k := hleast hsettles
      omega
  · intro hnone
    have hlast := hend.resolve_right (hnone k)
    omega
  · rw [Nat.add_sub_cancel, List.range_eq_range', ← List.append_nil (List.reverse _)]
    exact hrun

end BucketTransfer.Provision.Retry
