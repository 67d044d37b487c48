import BucketTransfer.ObjectStore.Listing
import BucketTransfer.Proofs.Dialogue.Rehearsal
import BucketTransfer.Proofs.ObjectStore.Memory

/-!
# Listing a store that stands still

Each page goes on where the one before it stopped, so that the pages together name every object
under the prefix once.
-/
namespace BucketTransfer.ObjectStore.Memory
open Rehearsal (play)

/-- What is under a prefix. -/
def under (keyPrefix : String) (objects : List (String × Bytes)) : List (String × Bytes) :=
  objects.filter fun o => o.1.startsWith keyPrefix

/-- What comes after a marker. -/
def after (marker : Option String) (objects : List (String × Bytes)) : List (String × Bytes) :=
  objects.filter fun o => marker.all fun m => decide (m < o.1)

/-- How an object is listed. -/
def summary (o : String × Bytes) : Summary :=
  { key := o.1, size := o.2.length, etag := some (plainEtag o.2) }

variable {objects : List (String × Bytes)} {o : String × Bytes} {marker : Option String}
  {size : Nat} {keyPrefix : String}

theorem after_none (objects : List (String × Bytes)) : after none objects = objects := by
  simp [after]

theorem page_eq (objects : List (String × Bytes)) (size : Nat) (keyPrefix : String)
    (marker : Option String) :
    page objects size keyPrefix marker =
      { objects := ((after marker (under keyPrefix objects)).take size).map summary
        truncated := decide (size < (after marker (under keyPrefix objects)).length) } := by
  have hmatching : (objects.filter fun o =>
      o.1.startsWith keyPrefix && marker.all fun m => decide (m < o.1)) =
        after marker (under keyPrefix objects) := by
    rw [after, under, List.filter_filter]
    simp only [Bool.and_comm]
  simp only [page, hmatching]
  rfl

/-- The last entry has the greatest key. -/
theorem eq_or_lt_of_getLast? {x : String × Bytes} (h : objects.Pairwise fun a b => a.1 < b.1)
    (hlast : objects.getLast? = some o) (hx : x ∈ objects) : x = o ∨ x.1 < o.1 := by
  obtain ⟨front, rfl⟩ := List.getLast?_eq_some_iff.1 hlast
  rcases List.mem_append.1 hx with hx | hx
  · exact .inr ((List.pairwise_append.1 h).2.2 x hx o (by simp))
  · exact .inl (by simpa using hx)

private theorem filter_of_take {n : Nat} (h : objects.Pairwise fun a b => a.1 < b.1)
    (hlast : (objects.take n).getLast? = some o) :
    objects.filter (fun x => decide (o.1 < x.1)) = objects.drop n := by
  have hsplit := List.take_append_drop n objects
  rw [← hsplit] at h
  obtain ⟨htake, -, hcross⟩ := List.pairwise_append.1 h
  have hmem : o ∈ objects.take n := List.mem_of_getLast? hlast
  have hnone : (objects.take n).filter (fun x => decide (o.1 < x.1)) = [] := by
    rw [List.filter_eq_nil_iff]
    intro x hx
    rw [decide_eq_true_eq]
    rcases eq_or_lt_of_getLast? htake hlast hx with rfl | hlt
    · exact String.lt_irrefl x.1
    · exact String.lt_asymm hlt
  have hall : (objects.drop n).filter (fun x => decide (o.1 < x.1)) = objects.drop n := by
    rw [List.filter_eq_self]
    intro x hx
    exact decide_eq_true (hcross o hmem x hx)
  conv => lhs; rw [← hsplit]
  rw [List.filter_append, hnone, hall, List.nil_append]

/-- The next page starts behind the last object of the page before it. -/
theorem after_last (h : objects.Pairwise fun a b => a.1 < b.1)
    (hlast : ((after marker objects).take size).getLast? = some o) :
    after (some o.1) objects = (after marker objects).drop size := by
  have hsorted : (after marker objects).Pairwise fun a b => a.1 < b.1 := h.filter _
  rw [← filter_of_take hsorted hlast, after, after, List.filter_filter]
  refine List.filter_congr fun x _ => ?_
  have ho : marker.all fun m => decide (m < o.1) := by
    have hmem := List.mem_of_mem_take (List.mem_of_getLast? hlast)
    simpa using (List.mem_filter.1 hmem).2
  cases marker with
  | none => simp
  | some m =>
    have hm : m < o.1 := of_decide_eq_true ho
    rw [Option.all_some, Option.all_some]
    by_cases hx : o.1 < x.1
    · rw [decide_eq_true hx, decide_eq_true (String.lt_trans hm hx)]
      rfl
    · rw [decide_eq_false hx]
      rfl

theorem continuation_of_le (h : (after marker (under keyPrefix objects)).length ≤ size) :
    (page objects size keyPrefix marker).continuation = none := by
  have htruncated : ¬size < (after marker (under keyPrefix objects)).length := Nat.not_lt.2 h
  simp [page_eq, Page.continuation, htruncated]

theorem continuation_of_lt (hsize : 0 < size)
    (h : size < (after marker (under keyPrefix objects)).length) :
    ∃ o, ((after marker (under keyPrefix objects)).take size).getLast? = some o ∧
      (page objects size keyPrefix marker).continuation = some o.1 ∧ marker ≠ some o.1 := by
  have hne : (after marker (under keyPrefix objects)).take size ≠ [] := by
    rw [← List.length_pos_iff, List.length_take]
    omega
  obtain ⟨o, hlast⟩ : ∃ o, ((after marker (under keyPrefix objects)).take size).getLast? = some o :=
    ⟨_, List.getLast?_eq_some_getLast hne⟩
  refine ⟨o, hlast, ?_, ?_⟩
  · simp only [page_eq, Page.continuation, h, List.getLast?_map, hlast]
    rfl
  · rintro rfl
    have hmem := List.mem_of_mem_take (List.mem_of_getLast? hlast)
    have hafter := (List.mem_filter.1 hmem).2
    rw [Option.all_some, decide_eq_true_eq] at hafter
    exact String.lt_irrefl o.1 hafter

/-- The next page starts behind the last key of a page. -/
theorem getLast?_of_continuation {onward : String}
    (h : (page objects size keyPrefix marker).continuation = some onward) :
    ∃ o, ((after marker (under keyPrefix objects)).take size).getLast? = some o ∧ o.1 = onward := by
  rw [page_eq, Page.continuation] at h
  split at h
  · exact absurd h (by simp)
  · rw [List.getLast?_map, Option.filter_none, Option.none_or, Option.map_map] at h
    obtain ⟨o, hlast, honward⟩ := Option.map_eq_some_iff.1 h
    exact ⟨o, hlast, honward⟩

/-- How many pages a listing takes: as many as it fills, and one at least. -/
def pagesFor (count size : Nat) : Nat := max 1 ((count + size - 1) / size)

theorem pagesFor_pos (count size : Nat) : 0 < pagesFor count size :=
  Nat.lt_of_lt_of_le Nat.one_pos (Nat.le_max_left ..)

theorem pagesFor_mono {count others : Nat} (h : count ≤ others) :
    pagesFor count size ≤ pagesFor others size := by
  have hdiv : (count + size - 1) / size ≤ (others + size - 1) / size :=
    Nat.div_le_div_right (by omega)
  rw [pagesFor, pagesFor]
  omega

theorem pagesFor_of_le {count : Nat} (hsize : 0 < size) (h : count ≤ size) :
    pagesFor count size = 1 := by
  have hlt : (count + size - 1) / size < 2 := by
    rw [Nat.div_lt_iff_lt_mul hsize]
    omega
  rw [pagesFor]
  omega

theorem pagesFor_of_lt {count : Nat} (hsize : 0 < size) (h : size < count) :
    pagesFor count size = pagesFor (count - size) size + 1 := by
  have hsplit : count + size - 1 = count - size + size - 1 + size := by omega
  have hone : 1 ≤ (count - size + size - 1) / size := by
    rw [Nat.le_div_iff_mul_le hsize]
    omega
  rw [pagesFor, pagesFor, hsplit, Nat.add_div_right _ hsize]
  omega

theorem pagesFor_le {count pages : Nat} (hpages : 0 < pages) (h : count ≤ pages * size) :
    pagesFor count size ≤ pages := by
  refine Nat.max_le.2 ⟨hpages, ?_⟩
  rcases Nat.eq_zero_or_pos size with rfl | hsize
  · simp
  · have hlt : (count + size - 1) / size < pages + 1 := by
      rw [Nat.div_lt_iff_lt_mul hsize, Nat.succ_mul]
      omega
    omega

variable {σ : Type} [Served σ] {ε : Type} {fetch : Option String → Dialogue World (Except ε Page)}
  {stuck : String → ε} {P : Nat → Rehearsal σ → Prop}

/-- A listing of a store that stands still names the objects that are left, on as many pages as it
takes. -/
theorem play_listFrom (hsize : 0 < size) (hobjects : objects.Pairwise fun a b => a.1 < b.1)
    (hfetch : ∀ marker fetched w, P fetched w →
      ∃ mid, play (fetch marker) w = (some (.ok (page objects size keyPrefix marker)), mid) ∧
        P (fetched + 1) mid)
    {pages : Nat} {marker : Option String} (found : List (List Summary))
    (hpages : pagesFor (after marker (under keyPrefix objects)).length size ≤ pages)
    (fetched : Nat) {w : Rehearsal σ} (hw : P fetched w) :
    ∃ last, play (listFrom fetch stuck found marker pages) w =
      (some (.ok (found.reverse.flatten ++
        (after marker (under keyPrefix objects)).map summary)), last) ∧
      P (fetched + pagesFor (after marker (under keyPrefix objects)).length size) last := by
  induction pages generalizing marker found fetched w with
  | zero => exact absurd (pagesFor_pos ..) (Nat.not_lt.2 hpages)
  | succ pages ih =>
    obtain ⟨mid, hpage, hmid⟩ := hfetch marker fetched w hw
    have hsorted : (under keyPrefix objects).Pairwise fun a b => a.1 < b.1 := hobjects.filter _
    by_cases hmore : size < (after marker (under keyPrefix objects)).length
    · obtain ⟨o, hlast, hnext, hother⟩ := continuation_of_lt hsize hmore
      have hdrop := after_last hsorted hlast
      have hcount := pagesFor_of_lt hsize hmore
      rw [← List.length_drop, ← hdrop] at hcount
      have hrest : pagesFor (after (some o.1) (under keyPrefix objects)).length size ≤ pages := by
        omega
      obtain ⟨last, hplay, hstill⟩ :=
        ih ((page objects size keyPrefix marker).objects :: found) hrest (fetched + 1) hmid
      refine ⟨last, Rehearsal.play_bind hpage ?_, ?_⟩
      · simp only [hnext, if_neg hother, hplay]
        rw [page_eq, hdrop, List.reverse_cons, List.flatten_append, List.flatten_singleton,
          List.append_assoc, ← List.map_append, List.take_append_drop]
      · rw [hcount, Nat.add_comm _ 1, ← Nat.add_assoc]
        exact hstill
    · have hend := continuation_of_le (Nat.not_lt.1 hmore)
      refine ⟨mid, Rehearsal.play_bind hpage ?_, ?_⟩
      · simp only [hend]
        rw [page_eq, List.take_of_length_le (Nat.not_lt.1 hmore), List.reverse_cons,
          List.flatten_append, List.flatten_singleton]
        rfl
      · rw [pagesFor_of_le hsize (Nat.not_lt.1 hmore)]
        exact hmid

end BucketTransfer.ObjectStore.Memory
