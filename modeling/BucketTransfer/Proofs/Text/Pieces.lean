import BucketTransfer.Text.Split
import Mathlib.Data.List.Basic

/-!
# Pieces of texts

A text of pieces with separators between them can be taken apart again if the pieces do not hold the
separator: from the front, from the back, and line by line up to the first empty line.
-/
namespace BucketTransfer.Text

section Separators
variable {α : Type} {a : α} {xs ys s t : List α}

/-- A piece at the front ends at the first separator. -/
theorem append_cons_inj (hx : a ∉ xs) (hy : a ∉ ys) (h : xs ++ a :: s = ys ++ a :: t) :
    xs = ys ∧ s = t := by
  induction xs generalizing ys with
  | nil =>
    cases ys with
    | nil => exact ⟨rfl, List.tail_eq_of_cons_eq h⟩
    | cons y ys => exact absurd (List.head_eq_of_cons_eq h) (List.ne_of_not_mem_cons hy)
  | cons x xs ih =>
    cases ys with
    | nil => exact absurd (List.head_eq_of_cons_eq h).symm (List.ne_of_not_mem_cons hx)
    | cons y ys =>
      obtain ⟨rfl, htail⟩ := List.cons.inj h
      obtain ⟨rfl, rfl⟩ :=
        ih (List.not_mem_of_not_mem_cons hx) (List.not_mem_of_not_mem_cons hy) htail
      exact ⟨rfl, rfl⟩

/-- A piece at the back starts after the last separator. -/
theorem append_cons_inj_right (hs : a ∉ s) (ht : a ∉ t) (h : xs ++ a :: s = ys ++ a :: t) :
    xs = ys ∧ s = t := by
  have hreverse : s.reverse ++ a :: xs.reverse = t.reverse ++ a :: ys.reverse := by
    simpa using congrArg List.reverse h
  obtain ⟨hst, hxy⟩ := append_cons_inj (by simpa using hs) (by simpa using ht) hreverse
  exact ⟨List.reverse_injective hxy, List.reverse_injective hst⟩

/-- What stands in two texts is in the first of them or in the second. -/
theorem split_of_append_eq (h : xs ++ ys = s ++ a :: t) :
    (∃ later, s = xs ++ later ∧ ys = later ++ a :: t) ∨ ∃ outer, xs = s ++ a :: outer := by
  rcases List.append_eq_append_iff.1 h with ⟨later, rfl, hys⟩ | ⟨outer, rfl, hcons⟩
  · exact .inl ⟨later, rfl, hys⟩
  · cases outer with
    | nil => exact .inl ⟨[], by simp, hcons.symm⟩
    | cons b outer =>
      obtain ⟨rfl, -⟩ := List.cons.inj hcons
      exact .inr ⟨outer, rfl⟩

/-- Lines, each with the separator that ends it. -/
def block (a : α) (lines : List (List α)) : List α := lines.flatMap fun line => line ++ [a]

/-- Lines that are not empty end at the first empty line. -/
theorem block_inj {lines lines' : List (List α)} (hl : ∀ line ∈ lines, line ≠ [] ∧ a ∉ line)
    (hl' : ∀ line ∈ lines', line ≠ [] ∧ a ∉ line)
    (h : block a lines ++ a :: s = block a lines' ++ a :: t) : lines = lines' ∧ s = t := by
  have hempty : ∀ {line rest u v : List α}, line ≠ [] ∧ a ∉ line →
      a :: u ≠ line ++ a :: rest ++ v := by
    rintro (_ | ⟨b, line⟩) rest u v ⟨hne, hfree⟩ heq
    · exact hne rfl
    · exact List.ne_of_not_mem_cons hfree (List.head_eq_of_cons_eq heq)
  induction lines generalizing lines' with
  | nil =>
    cases lines' with
    | nil => exact ⟨rfl, List.tail_eq_of_cons_eq h⟩
    | cons line lines' =>
      refine absurd h ?_
      simpa [block] using hempty (hl' line List.mem_cons_self)
  | cons line lines ih =>
    obtain ⟨hline, hlines⟩ := List.forall_mem_cons.1 hl
    cases lines' with
    | nil =>
      refine absurd h.symm ?_
      simpa [block] using hempty hline
    | cons line' lines' =>
      obtain ⟨hline', hlines'⟩ := List.forall_mem_cons.1 hl'
      have hpeeled : line ++ a :: (block a lines ++ a :: s) =
          line' ++ a :: (block a lines' ++ a :: t) := by
        simpa [block] using h
      obtain ⟨rfl, hrest⟩ := append_cons_inj hline.2 hline'.2 hpeeled
      obtain ⟨rfl, rfl⟩ := ih hlines hlines' hrest
      exact ⟨rfl, rfl⟩

/-- Joined lines with a last separator are a block. -/
theorem intercalate_append {lines : List (List α)} (h : lines ≠ []) :
    [a].intercalate lines ++ a :: s = block a lines ++ s := by
  induction lines with
  | nil => exact absurd rfl h
  | cons line lines ih =>
    cases lines with
    | nil => simp [block]
    | cons next lines =>
      rw [List.intercalate_cons_cons, List.append_assoc, List.append_assoc, ih (by simp)]
      simp [block]

theorem split_eq_splitOn [DecidableEq α] : split a xs = xs.splitOn a := by
  induction xs with
  | nil => rfl
  | cons x xs ih =>
    rw [split, List.splitOn_cons_eq_if_modifyHead, ih]
    by_cases hx : x = a
    · simp [hx]
    · cases hrest : xs.splitOn a with
      | nil => exact absurd hrest (List.splitOn_ne_nil a xs)
      | cons piece rest => simp [hx]

theorem split_of_not_mem [DecidableEq α] (hx : a ∉ xs) : split a xs = [xs] := by
  rw [split_eq_splitOn, List.splitOn_eq_singleton hx]

theorem split_append [DecidableEq α] : split a (xs ++ a :: ys) = split a xs ++ split a ys := by
  simp only [split_eq_splitOn, List.splitOn_append_cons_self]

theorem split_append_cons [DecidableEq α] (hx : a ∉ xs) :
    split a (xs ++ a :: ys) = xs :: split a ys := by
  rw [split_append, split_of_not_mem hx, List.singleton_append]

theorem not_mem_of_mem_split [DecidableEq α] (h : ys ∈ split a xs) : a ∉ ys := by
  induction xs generalizing ys with
  | nil =>
    obtain rfl := List.mem_singleton.1 h
    exact List.not_mem_nil
  | cons x xs ih =>
    rw [split] at h
    split at h
    · rcases List.mem_cons.1 h with rfl | h
      · exact List.not_mem_nil
      · exact ih h
    · rename_i hx
      cases hrest : split a xs with
      | nil =>
        rw [split_eq_splitOn] at hrest
        exact absurd hrest (List.splitOn_ne_nil a xs)
      | cons piece rest =>
        rw [hrest] at h ih
        rcases List.mem_cons.1 h with rfl | h
        · exact List.not_mem_cons_of_ne_of_not_mem (Ne.symm hx) (ih List.mem_cons_self)
        · exact ih (List.mem_cons_of_mem _ h)

/-- Joined pieces are split into the pieces. -/
theorem split_intercalate [DecidableEq α] {pieces : List (List α)} (hne : pieces ≠ [])
    (hpieces : ∀ piece ∈ pieces, a ∉ piece) : split a ([a].intercalate pieces) = pieces := by
  rw [split_eq_splitOn, List.splitOn_intercalate a hpieces hne]

theorem intercalate_split [DecidableEq α] : [a].intercalate (split a xs) = xs := by
  rw [split_eq_splitOn, List.intercalate_splitOn]

end Separators

/-- A character of joined texts stands in the separator or in one of the texts. -/
theorem mem_intercalate {c : Char} {separator : String} {texts : List String}
    (h : c ∈ (separator.intercalate texts).toList) :
    c ∈ separator.toList ∨ ∃ text ∈ texts, c ∈ text.toList := by
  induction texts with
  | nil => simp at h
  | cons text texts ih =>
    cases texts with
    | nil => exact .inr ⟨text, List.mem_singleton_self _, by simpa using h⟩
    | cons next texts =>
      rw [String.intercalate_cons_cons, String.toList_append, String.toList_append,
        List.mem_append, List.mem_append] at h
      rcases h with (h | h) | h
      · exact .inr ⟨text, List.mem_cons_self, h⟩
      · exact .inl h
      · refine (ih h).imp_right ?_
        rintro ⟨found, hfound, hc⟩
        exact ⟨found, List.mem_cons_of_mem _ hfound, hc⟩

theorem mem_intercalate_of_mem {c : Char} {separator text : String} {texts : List String}
    (htext : text ∈ texts) (h : c ∈ text.toList) : c ∈ (separator.intercalate texts).toList := by
  induction texts with
  | nil => exact absurd htext List.not_mem_nil
  | cons first texts ih =>
    cases texts with
    | nil =>
      obtain rfl := List.mem_singleton.1 htext
      rwa [String.intercalate_singleton]
    | cons next texts =>
      rw [String.intercalate_cons_cons, String.toList_append, List.mem_append]
      rcases List.mem_cons.1 htext with rfl | htext
      · exact .inl (by simp [h])
      · exact .inr (ih htext)

end BucketTransfer.Text
