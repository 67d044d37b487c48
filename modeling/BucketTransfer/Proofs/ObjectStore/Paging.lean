import BucketTransfer.ObjectStore.Listing
import BucketTransfer.Proofs.Dialogue.Course

/-!
# The course of a listing

The pages of a listing: the first one is asked for without a marker and each other one with the
marker that the page before it gives. A listing ends with a page that gives none.
-/
namespace BucketTransfer.ObjectStore
open Dialogue (Course)

variable {I : Interface} {ε : Type} {fetch : Option String → Dialogue I (Except ε Page)}
  {stuck : String → ε}

/-- What is said in a listing from a marker on, and what it finds. -/
inductive Paging (fetch : Option String → Dialogue I (Except ε Page)) (stuck : String → ε) :
    Option String → List (Exchange I) → Option (Except ε (List Summary)) → Prop where
  | cut (marker : Option String) : Paging fetch stuck marker [] none
  | unfetched (marker : Option String) (said : List (Exchange I))
      (course : Course (fetch marker) said none) : Paging fetch stuck marker said none
  | failed (marker : Option String) (said : List (Exchange I)) (e : ε)
      (course : Course (fetch marker) said (some (.error e))) :
      Paging fetch stuck marker said (some (.error e))
  | last (marker : Option String) (said : List (Exchange I)) (page : Page)
      (course : Course (fetch marker) said (some (.ok page))) (ends : page.continuation = none) :
      Paging fetch stuck marker said (some (.ok page.objects))
  | stuck (marker : String) (said : List (Exchange I)) (page : Page)
      (course : Course (fetch (some marker)) said (some (.ok page)))
      (same : page.continuation = some marker) :
      Paging fetch stuck (some marker) said (some (.error (stuck marker)))
  | next (marker : Option String) (said : List (Exchange I)) (page : Page) (onward : String)
      (course : Course (fetch marker) said (some (.ok page)))
      (advances : page.continuation = some onward) (other : marker ≠ some onward)
      (later : List (Exchange I)) (outcome : Option (Except ε (List Summary)))
      (rest : Paging fetch stuck (some onward) later outcome) :
      Paging fetch stuck marker (said ++ later) (outcome.map (·.map (page.objects ++ ·)))

theorem course_listFrom {found : List (List Summary)} {marker : Option String} {pages : Nat}
    {said : List (Exchange I)} {result : Option (Except ε (List Summary))}
    (h : Course (listFrom fetch stuck found marker pages) said result) :
    ∃ outcome, Paging fetch stuck marker said outcome ∧
      result = outcome.map (·.map (found.reverse.flatten ++ ·)) := by
  induction pages generalizing found marker said with
  | zero =>
    obtain ⟨rfl, rfl⟩ := Dialogue.course_unfinished.1 h
    exact ⟨none, .cut marker, rfl⟩
  | succ pages ih =>
    rcases Dialogue.course_bind.1 h with ⟨first, rest, answer, rfl, hfetch, hrest⟩ | ⟨hfetch, rfl⟩
    · cases answer with
      | error e =>
        obtain ⟨rfl, rfl⟩ := Dialogue.course_pure.1 hrest
        rw [List.append_nil]
        exact ⟨_, .failed marker first e hfetch, rfl⟩
      | ok page =>
        cases hnext : page.continuation with
        | none =>
          simp only [hnext] at hrest
          obtain ⟨rfl, rfl⟩ := Dialogue.course_pure.1 hrest
          rw [List.append_nil]
          exact ⟨_, .last marker first page hfetch hnext, by simp [Except.map]⟩
        | some onward =>
          simp only [hnext] at hrest
          split at hrest
          · rename_i hsame
            obtain ⟨rfl, rfl⟩ := Dialogue.course_pure.1 hrest
            subst hsame
            rw [List.append_nil]
            exact ⟨_, .stuck onward first page hfetch hnext, rfl⟩
          · rename_i hother
            obtain ⟨outcome, hpaging, rfl⟩ := ih hrest
            refine ⟨_, .next marker first page onward hfetch hnext hother rest outcome hpaging, ?_⟩
            rcases outcome with _ | _ | objects <;> simp [Except.map]
    · exact ⟨none, .unfetched marker said hfetch, rfl⟩

theorem course_listAll {pages : Nat} {said : List (Exchange I)}
    {result : Option (Except ε (List Summary))}
    (h : Course (listAll pages fetch stuck) said result) : Paging fetch stuck none said result := by
  obtain ⟨outcome, hpaging, rfl⟩ := course_listFrom h
  rcases outcome with _ | _ | objects <;> exact hpaging

end BucketTransfer.ObjectStore
