import BucketTransfer.Proofs.Dialogue.Leads
import BucketTransfer.Proofs.KeyMap.Lookup
import BucketTransfer.Secrets.File
import BucketTransfer.World

/-!
# Keepers of secrets

Secrets are kept in memory or in a file; a file system may answer anything. Either way a change is
made as a whole or not at all.
-/
namespace BucketTransfer

namespace Secrets
open Dialogue (Course)

inductive Keeper where
  | memory (secrets : Secrets)
  | file (file : File)

namespace Keeper

/-- The secrets that are kept. -/
def secrets : Keeper → Secrets
  | memory secrets => secrets
  | file f => f.secrets

/-- What can become of a secret that is to be stored. -/
inductive Stores (key value : String) : Keeper → Except Error Unit → Keeper → Prop where
  | memory (secrets : Secrets) :
      Stores key value (.memory secrets) (secrets.store key value).1
        (.memory (secrets.store key value).2)
  | file {f left : File} {said : List (Exchange Files)} {answer : Except Error Unit}
      (course : Course (f.store key value) said (some (answer, left))) :
      Stores key value (.file f) answer (.file left)

/-- What can become of a secret that is to be taken away. -/
inductive Deletes (key : String) : Keeper → Except Error Bool → Keeper → Prop where
  | memory (secrets : Secrets) :
      Deletes key (.memory secrets) (secrets.delete key).1 (.memory (secrets.delete key).2)
  | file {f left : File} {said : List (Exchange Files)} {answer : Except Error Bool}
      (course : Course (f.delete key) said (some (answer, left))) :
      Deletes key (.file f) answer (.file left)

/-- What an exchange does to a keeper. -/
def Step (k : Keeper) (e : Exchange World) (k' : Keeper) : Prop :=
  match e with
  | ⟨.resolveSecret key, answer⟩ => answer = .ok (k.secrets.get? key) ∧ k' = k
  | ⟨.storeSecret key value, answer⟩ => k.Stores key value answer k'
  | ⟨.deleteSecret key, answer⟩ => k.Deletes key answer k'
  | _ => k' = k

variable {k k' : Keeper} {key value : String}

/-- A change is made, or what it put in place of a secret is undone. -/
private theorem course_change {f left : File} {secrets : Secrets} {said : List (Exchange Files)}
    {answer : Except Error Unit} (hback : secrets.restore key (f.secrets.get? key) = f.secrets)
    (h : Course (f.change key secrets) said (some (answer, left))) :
    (answer = .ok () ∧ left.secrets = secrets) ∨ (∃ e, answer = .error e) ∧ left = f := by
  rcases Dialogue.course_bind.1 h with ⟨first, rest, persisted, -, -, hend⟩ | ⟨-, heq⟩
  · cases persisted with
    | ok value =>
      obtain ⟨-, heq⟩ := Dialogue.course_pure.1 hend
      obtain ⟨rfl, rfl⟩ := Prod.mk.inj (Option.some.inj heq)
      exact .inl ⟨rfl, rfl⟩
    | error e =>
      obtain ⟨-, heq⟩ := Dialogue.course_pure.1 hend
      obtain ⟨rfl, rfl⟩ := Prod.mk.inj (Option.some.inj heq)
      exact .inr ⟨⟨e, rfl⟩, by rw [hback]⟩
  · exact absurd heq (by simp)

/-- A secret is stored, or all secrets are as before. -/
theorem Stores.stored_or_kept {answer : Except Error Unit} (h : k.Stores key value answer k') :
    (answer = .ok () ∧ k'.secrets = k.secrets.insert key value) ∨
      (∃ e, answer = .error e) ∧ k'.secrets = k.secrets := by
  cases h with
  | memory secrets =>
    rw [Secrets.store]
    split
    · exact .inr ⟨⟨_, rfl⟩, rfl⟩
    · exact .inl ⟨rfl, rfl⟩
  | @file f left said answer course =>
    rw [File.store] at course
    split at course
    · obtain ⟨-, heq⟩ := Dialogue.course_pure.1 course
      obtain ⟨rfl, rfl⟩ := Prod.mk.inj (Option.some.inj heq)
      exact .inr ⟨⟨_, rfl⟩, rfl⟩
    · have hback := KeyMap.restore_insert f.secrets key value
      rcases course_change hback course with ⟨rfl, hsecrets⟩ | ⟨herror, rfl⟩
      · exact .inl ⟨rfl, hsecrets⟩
      · exact .inr ⟨herror, rfl⟩

/-- A secret is taken away and the answer says whether it was there, or all secrets are as before.
-/
theorem Deletes.deleted_or_kept {answer : Except Error Bool} (h : k.Deletes key answer k') :
    (answer = .ok (k.secrets.contains key) ∧ k'.secrets = k.secrets.erase key) ∨
      (∃ e, answer = .error e) ∧ k'.secrets = k.secrets := by
  cases h with
  | memory secrets => exact .inl ⟨rfl, rfl⟩
  | @file f left said answer course =>
    rw [File.delete] at course
    split at course
    · rename_i hthere
      rcases Dialogue.course_bind.1 course with ⟨first, rest, changed, -, hchange, hend⟩ | ⟨-, heq⟩
      · obtain ⟨-, heq⟩ := Dialogue.course_pure.1 hend
        obtain ⟨rfl, rfl⟩ := Prod.mk.inj (Option.some.inj heq)
        have hback := KeyMap.restore_erase f.secrets key
        rcases course_change hback hchange with ⟨hok, hsecrets⟩ | ⟨⟨e, herror⟩, hsame⟩
        · refine .inl ⟨?_, hsecrets⟩
          rw [hok, show (Keeper.file f).secrets.contains key = true from hthere]
          rfl
        · refine .inr ⟨⟨e, ?_⟩, by rw [hsame]⟩
          rw [herror]
          rfl
      · exact absurd heq (by simp)
    · rename_i habsent
      obtain ⟨-, heq⟩ := Dialogue.course_pure.1 course
      obtain ⟨rfl, rfl⟩ := Prod.mk.inj (Option.some.inj heq)
      have hnone : left.secrets.get? key = none := by simpa [KeyMap.contains] using habsent
      refine .inl ⟨?_, (KeyMap.erase_of_get?_eq_none hnone).symm⟩
      rw [show (Keeper.file left).secrets.contains key = false from Bool.eq_false_iff.2 habsent]

/-- Only what stores a secret or takes one away concerns a keeper. -/
theorem Step.eq_of_aside {e : Exchange World} (h : k.Step e k')
    (hstore : ∀ key value, e.question ≠ .storeSecret key value)
    (hdelete : ∀ key, e.question ≠ .deleteSecret key) : k' = k := by
  obtain ⟨q, answer⟩ := e
  cases q with
  | resolveSecret key => exact h.2
  | storeSecret key value => exact absurd rfl (hstore key value)
  | deleteSecret key => exact absurd rfl (hdelete key)
  | _ => exact h

/-- A secret is stored under a key, or the one that is there is taken away. -/
def Replaces (key : String) (e : Exchange World) : Prop :=
  (∃ value, e = ⟨.storeSecret key value, .ok ()⟩) ∨ e = ⟨.deleteSecret key, .ok true⟩

/-- A secret stays as it is unless it is replaced or taken away. -/
theorem Step.get?_of_not_replaces {e : Exchange World} (hthere : k.secrets.get? key = some value)
    (h : k.Step e k') (hkept : ¬Replaces key e) : k'.secrets.get? key = some value := by
  obtain ⟨q, answer⟩ := e
  cases q with
  | resolveSecret other => rw [h.2, hthere]
  | storeSecret other stored =>
    rcases Stores.stored_or_kept h with ⟨rfl, hsecrets⟩ | ⟨-, hsecrets⟩
    · have hne : key ≠ other := by
        rintro rfl
        exact hkept (.inl ⟨stored, rfl⟩)
      rw [hsecrets, KeyMap.get?_insert_of_ne hne, hthere]
    · rw [hsecrets, hthere]
  | deleteSecret other =>
    rcases Deletes.deleted_or_kept h with ⟨rfl, hsecrets⟩ | ⟨-, hsecrets⟩
    · have hne : key ≠ other := by
        rintro rfl
        refine hkept (.inr ?_)
        rw [KeyMap.contains, hthere]
        rfl
      rw [hsecrets, KeyMap.get?_erase, if_neg hne, hthere]
    · rw [hsecrets, hthere]
  | _ =>
    obtain rfl : k' = k := h
    exact hthere

theorem get?_of_leads {said : List (Exchange World)} (hthere : k.secrets.get? key = some value)
    (h : Leads Step k said k') (hkept : ∀ e ∈ said, ¬Replaces key e) :
    k'.secrets.get? key = some value :=
  h.invariant (P := fun k => k.secrets.get? key = some value) hthere
    fun e he _ _ hthere hstep => hstep.get?_of_not_replaces hthere (hkept e he)

end Keeper

end Secrets

end BucketTransfer
