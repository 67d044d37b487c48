import BucketTransfer.KeyMap
import Mathlib.Data.List.Perm.Subperm

/-!
# Looking up in maps

What a map holds at each key decides the map, and is all that is needed to compare maps that were
changed in different ways.
-/
namespace BucketTransfer.KeyMap
variable {α : Type} {m n : KeyMap α} {key k : String} {value : α}

@[simp] theorem get?_empty : (∅ : KeyMap α).get? k = none := rfl

private theorem find?_put (key : String) (value : α) (es : List (String × α)) (k : String) :
    (put key value es).find? (fun e => e.1 == k) =
      if k = key then some (key, value) else es.find? fun e => e.1 == k := by
  have hnew : ∀ rest : List (String × α), ((key, value) :: rest).find? (fun e => e.1 == k) =
      if k = key then some (key, value) else rest.find? fun e => e.1 == k := by
    intro rest
    by_cases h : k = key
    · simp [h]
    · simp [h, Ne.symm h]
  induction es with
  | nil => exact hnew []
  | cons e es ih =>
    simp only [put]
    split
    · exact hnew (e :: es)
    · split
      · rename_i hlt
        by_cases he : e.1 = k
        · have hne : k ≠ key := fun h => absurd (he.trans h) (String.ne_of_lt hlt)
          simp [he, hne]
        · rw [List.find?_cons_of_neg (by simpa using he), ih,
            List.find?_cons_of_neg (by simpa using he)]
      · rename_i hge hle
        have he : e.1 = key := String.le_antisymm (String.not_lt.1 hge) (String.not_lt.1 hle)
        rw [hnew]
        by_cases h : k = key
        · simp [h]
        · rw [if_neg h, if_neg h,
            List.find?_cons_of_neg (by simpa [he] using Ne.symm h)]

theorem get?_insert (m : KeyMap α) (key : String) (value : α) (k : String) :
    (m.insert key value).get? k = if k = key then some value else m.get? k := by
  rw [get?, insert, find?_put]
  split <;> rfl

@[simp] theorem get?_insert_self : (m.insert key value).get? key = some value := by
  rw [get?_insert, if_pos rfl]

theorem get?_insert_of_ne (h : k ≠ key) : (m.insert key value).get? k = m.get? k := by
  rw [get?_insert, if_neg h]

theorem get?_erase (m : KeyMap α) (key k : String) :
    (m.erase key).get? k = if k = key then none else m.get? k := by
  rw [get?, erase, List.find?_filter]
  by_cases h : k = key
  · simp [h, List.find?_eq_none]
  · rw [if_neg h, get?]
    congr 2
    funext e
    by_cases he : e.1 = k
    · simp [he, h]
    · simp [he]

theorem get?_eraseAll (m : KeyMap α) (keys : List String) (k : String) :
    (m.eraseAll keys).get? k = if k ∈ keys then none else m.get? k := by
  rw [eraseAll]
  induction keys generalizing m with
  | nil => rfl
  | cons key keys ih =>
    rw [List.foldl_cons, ih, get?_erase]
    by_cases hk : k = key
    · simp [hk]
    · simp [hk]

theorem contains_eq_true : m.contains key = true ↔ ∃ value, m.get? key = some value := by
  rw [contains, Option.isSome_iff_exists]

/-- An entry is what the map holds at its key. -/
theorem mem_entries {e : String × α} : e ∈ m.entries ↔ m.get? e.1 = some e.2 := by
  have hordered := m.ordered
  rw [get?]
  generalize m.entries = es at hordered
  induction es with
  | nil => simp
  | cons x xs ih =>
    obtain ⟨hx, hxs⟩ := List.pairwise_cons.1 hordered
    by_cases h : x.1 = e.1
    · rw [List.find?_cons_of_pos (by simpa using h), List.mem_cons, Option.map_some,
        Option.some.injEq]
      constructor
      · rintro (rfl | he)
        · rfl
        · exact absurd h (String.ne_of_lt (hx e he))
      · intro hvalue
        exact .inl (Prod.ext h.symm hvalue.symm)
    · rw [List.find?_cons_of_neg (by simpa using h), List.mem_cons, or_iff_right]
      · exact ih hxs
      · rintro rfl
        exact h rfl

theorem mem_keys : k ∈ m.keys ↔ (m.get? k).isSome := by
  rw [keys, List.mem_map, Option.isSome_iff_exists]
  constructor
  · rintro ⟨e, he, rfl⟩
    exact ⟨e.2, mem_entries.1 he⟩
  · rintro ⟨value, hvalue⟩
    exact ⟨(k, value), mem_entries.2 hvalue, rfl⟩

/-- The keys increase. -/
theorem pairwise_keys (m : KeyMap α) : m.keys.Pairwise (· < ·) := List.pairwise_map.2 m.ordered

theorem nodup_entries (m : KeyMap α) : m.entries.Nodup :=
  m.ordered.imp fun hlt heq => String.ne_of_lt hlt (congrArg Prod.fst heq)

theorem ext_get? (h : ∀ k, m.get? k = n.get? k) : m = n := by
  refine eq_of_entries (List.Perm.eq_of_pairwise ?_ m.ordered n.ordered ?_)
  · intro a b _ _ hab hba
    exact absurd hba (String.lt_asymm hab)
  · rw [List.perm_ext_iff_of_nodup m.nodup_entries n.nodup_entries]
    intro e
    rw [mem_entries, mem_entries, h]

/-- The keys are the only list of them that increases. -/
theorem eq_keys {ks : List String} (hks : ks.Pairwise (· < ·))
    (h : ∀ k, k ∈ ks ↔ (m.get? k).isSome) : ks = m.keys := by
  refine List.Perm.eq_of_pairwise ?_ hks m.pairwise_keys ?_
  · intro a b _ _ hab hba
    exact absurd hba (String.lt_asymm hab)
  · have hnodup : ∀ {ks : List String}, ks.Pairwise (· < ·) → ks.Nodup :=
      fun hks => hks.imp fun hlt => String.ne_of_lt hlt
    rw [List.perm_ext_iff_of_nodup (hnodup hks) (hnodup m.pairwise_keys)]
    intro k
    rw [h, mem_keys]

theorem insert_insert (m : KeyMap α) (key : String) (first last : α) :
    (m.insert key first).insert key last = m.insert key last := by
  refine ext_get? fun k => ?_
  simp only [get?_insert]
  split <;> rfl

/-- Putting in what is there changes nothing. -/
theorem insert_of_get?_eq_some (h : m.get? key = some value) : m.insert key value = m := by
  refine ext_get? fun k => ?_
  rw [get?_insert]
  split
  · rename_i hk
    rw [hk, h]
  · rfl

/-- What was put back is the map as it was, if nothing else had changed. -/
theorem restore_of_agrees (h : ∀ k ≠ key, n.get? k = m.get? k) :
    n.restore key (m.get? key) = m := by
  refine ext_get? fun k => ?_
  by_cases hk : k = key
  · subst hk
    cases hvalue : m.get? k with
    | some value => rw [restore, get?_insert_self]
    | none => rw [restore, get?_erase, if_pos rfl]
  · cases m.get? key with
    | some value => rw [restore, get?_insert_of_ne hk, h k hk]
    | none => rw [restore, get?_erase, if_neg hk, h k hk]

theorem restore_insert (m : KeyMap α) (key : String) (value : α) :
    (m.insert key value).restore key (m.get? key) = m :=
  restore_of_agrees fun _ => get?_insert_of_ne

theorem restore_erase (m : KeyMap α) (key : String) : (m.erase key).restore key (m.get? key) = m :=
  restore_of_agrees fun k hk => by rw [get?_erase, if_neg hk]

private theorem length_put {es : List (String × α)} (h : ∀ e ∈ es, e.1 ≠ key) :
    (put key value es).length = es.length + 1 := by
  induction es with
  | nil => rfl
  | cons e es ih =>
    obtain ⟨he, hes⟩ := List.forall_mem_cons.1 h
    simp only [put]
    split
    · rfl
    · split
      · rw [List.length_cons, ih hes, List.length_cons]
      · rename_i hge hle
        exact absurd (String.le_antisymm (String.not_lt.1 hge) (String.not_lt.1 hle)) he

/-- A key that is new makes the map larger by one. -/
theorem size_insert (h : m.get? key = none) : (m.insert key value).size = m.size + 1 := by
  refine length_put fun e he heq => ?_
  rw [← heq, mem_entries.1 he] at h
  exact absurd h (by simp)

/-- A key that is new adds an entry to those that are there. -/
theorem perm_entries_insert (h : m.get? key = none) :
    (m.insert key value).entries.Perm ((key, value) :: m.entries) := by
  have habsent : (key, value) ∉ m.entries := fun hmem => by simp [mem_entries.1 hmem] at h
  rw [List.perm_ext_iff_of_nodup (nodup_entries _) (List.nodup_cons.2 ⟨habsent, nodup_entries _⟩)]
  intro e
  rw [mem_entries, get?_insert, List.mem_cons, mem_entries]
  split
  case isTrue heq =>
    rw [heq, h, Option.some.injEq, or_iff_left (by simp)]
    exact ⟨fun hvalue => Prod.ext heq hvalue.symm, fun he => (congrArg Prod.snd he).symm⟩
  case isFalse hne =>
    exact (or_iff_right fun he => hne (congrArg Prod.fst he)).symm

/-- A map that holds something wherever another one does is no smaller. -/
theorem size_le {n : KeyMap α} (h : ∀ k, (m.get? k).isSome → (n.get? k).isSome) :
    m.size ≤ n.size := by
  have hnodup : m.keys.Nodup := m.pairwise_keys.imp fun hlt => String.ne_of_lt hlt
  have hsubset : m.keys ⊆ n.keys := fun k hk => mem_keys.2 (h k (mem_keys.1 hk))
  have hlength : m.keys.length ≤ n.keys.length := (List.Nodup.subperm hnodup hsubset).length_le
  simpa [keys, size] using hlength

/-- Taking away what was put in leaves what was there. -/
theorem erase_insert (h : m.get? key = none) : (m.insert key value).erase key = m := by
  refine ext_get? fun k => ?_
  rw [get?_erase, get?_insert]
  split
  · rename_i hk
    rw [hk, h]
  · rfl

/-- Taking away what is not there changes nothing. -/
theorem erase_of_get?_eq_none (h : m.get? key = none) : m.erase key = m := by
  refine ext_get? fun k => ?_
  rw [get?_erase]
  split
  · rename_i hk
    rw [hk, h]
  · rfl

/-- What a map holds into which entries of different keys were put. -/
private theorem get?_foldl_insert {es : List (String × α)} (h : es.Pairwise fun a b => a.1 < b.1)
    (m : KeyMap α) (k : String) :
    (es.foldl (fun m e => m.insert e.1 e.2) m).get? k =
      ((es.find? fun e => e.1 == k).map (·.2)).or (m.get? k) := by
  induction es generalizing m with
  | nil => rfl
  | cons e es ih =>
    obtain ⟨hfirst, hothers⟩ := List.pairwise_cons.1 h
    rw [List.foldl_cons, ih hothers, get?_insert, List.find?_cons]
    by_cases hk : k = e.1
    · have hlater : (es.find? fun d => d.1 == k) = none := by
        refine List.find?_eq_none.2 fun d hd heq => ?_
        exact String.ne_of_lt (hfirst d hd) (hk.symm.trans (beq_iff_eq.1 heq).symm)
      rw [if_pos hk, hlater, beq_iff_eq.2 hk.symm]
      rfl
    · rw [if_neg hk, beq_eq_false_iff_ne.2 (Ne.symm hk)]

/-- A map is that of its entries. -/
theorem ofList_entries (m : KeyMap α) : ofList m.entries = m := by
  refine ext_get? fun k => ?_
  rw [ofList, get?_foldl_insert m.ordered, get?_empty, Option.or_none, get?]

end BucketTransfer.KeyMap
