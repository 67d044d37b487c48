import BucketTransfer.Proofs.Outcome
import BucketTransfer.Signing.Headers
import BucketTransfer.Text.Lowercase
import Mathlib.Data.List.Basic
import Mathlib.Data.List.Nodup
import Mathlib.Data.List.TakeDrop
import Mathlib.Data.List.TakeWhile

/-!
# Header fields as a map

In header fields that came about field by field each name stands once and has values. What values a
name has after another was set or taken out does not depend on the order of the fields, and a field
that is set again keeps its place. So fields that are set twice are as if they were set once.
-/
namespace BucketTransfer.Signing.Headers
variable {h h' : Headers} {name other : String} {value : Bytes} {change : List Bytes → List Bytes}
  {f : String × List Bytes} {fields : List (String × String)}

/-- The names, in the order of the fields. -/
def names (h : Headers) : List String := h.fields.map (·.1)

/-- Header fields in which each name stands once, in small letters, and has values. -/
structure IsMap (h : Headers) : Prop where
  nodup : h.names.Nodup
  ne_nil : ∀ f ∈ h.fields, f.2 ≠ []
  named : ∀ name ∈ h.names, fieldName? name = some name

theorem contains_iff : h.contains name = true ↔ name ∈ h.names := by
  simp [contains, names, List.any_eq_true]

/-! ## The values of a name -/

private theorem find_eq_none_iff :
    h.fields.find? (fun f => f.1 == name) = none ↔ name ∉ h.names := by
  rw [List.find?_eq_none, names, List.mem_map]
  exact ⟨fun hnone hthere => hthere.elim fun f hf => hnone f hf.1 (beq_iff_eq.2 hf.2),
    fun hname f hf hsame => hname ⟨f, hf, beq_iff_eq.1 hsame⟩⟩

private theorem mem_and_eq_of_find (hfound : h.fields.find? (fun f => f.1 == name) = some f) :
    f ∈ h.fields ∧ f.1 = name :=
  ⟨List.mem_of_find?_eq_some hfound, by simpa using List.find?_some hfound⟩

theorem values_of_not_mem (hname : name ∉ h.names) : h.values name = [] := by
  rw [values, find_eq_none_iff.2 hname]

theorem values_of_mem (hnodup : h.names.Nodup) (hf : f ∈ h.fields) : h.values f.1 = f.2 := by
  rw [values]
  cases hfound : h.fields.find? fun g => g.1 == f.1 with
  | none => exact absurd (List.mem_map_of_mem hf) (find_eq_none_iff.1 hfound)
  | some found =>
    obtain ⟨hmem, hsame⟩ := mem_and_eq_of_find hfound
    rw [List.inj_on_of_nodup_map hnodup hmem hf hsame]

theorem IsMap.values_ne_nil_iff (hh : h.IsMap) : h.values name ≠ [] ↔ name ∈ h.names := by
  refine ⟨fun hvalues => by_contra fun hname => hvalues (values_of_not_mem hname), fun hname => ?_⟩
  obtain ⟨f, hf, rfl⟩ := List.mem_map.1 hname
  rw [values_of_mem hh.nodup hf]
  exact hh.ne_nil f hf

/-- The names in their order and the values of each name are all that there is. -/
theorem ext_of_values (hnodup : h.names.Nodup) (hnames : h.names = h'.names)
    (hvalues : ∀ name, h.values name = h'.values name) : h = h' := by
  have hfields : ∀ {h : Headers}, h.names.Nodup →
      h.fields = h.names.map fun name => (name, h.values name) := by
    intro h hnodup
    rw [names, List.map_map]
    refine (List.map_id' _).symm.trans (List.map_congr_left fun f hf => ?_)
    rw [Function.comp_apply, values_of_mem hnodup hf]
  have hsame : h.fields = h'.fields := by
    rw [hfields hnodup, hfields (hnames ▸ hnodup), hnames]
    exact List.map_congr_left fun name _ => by rw [hvalues]
  cases h
  cases h'
  exact congrArg Headers.mk hsame

/-! ## Fields that are set -/

/-- A field with the values of one name changed. -/
def changed (name : String) (change : List Bytes → List Bytes) (f : String × List Bytes) :
    String × List Bytes :=
  if f.1 == name then (f.1, change f.2) else f

theorem changed_fst : (changed name change f).1 = f.1 := by
  rw [changed]
  split
  all_goals rfl

theorem update_of_mem (hname : name ∈ h.names) :
    h.update name change = ⟨h.fields.map (changed name change)⟩ :=
  if_pos (contains_iff.2 hname)

theorem update_of_not_mem (hname : name ∉ h.names) :
    h.update name change = ⟨h.fields ++ [(name, change [])]⟩ :=
  if_neg fun hthere => hname (contains_iff.1 hthere)

/-- A field that is changed keeps its place, and a new one comes last. -/
theorem names_update : (h.update name change).names =
    if name ∈ h.names then h.names else h.names ++ [name] := by
  split
  · rename_i hname
    rw [update_of_mem hname, names, List.map_map]
    exact List.map_congr_left fun f _ => changed_fst
  · rename_i hname
    rw [update_of_not_mem hname, names, List.map_append]
    rfl

theorem mem_names_update :
    other ∈ (h.update name change).names ↔ other ∈ h.names ∨ other = name := by
  rw [names_update]
  split
  · rename_i hname
    exact ⟨.inl, fun hother => hother.elim id fun hsame => hsame ▸ hname⟩
  · simp

private theorem find_changed : (h.fields.map (changed name change)).find? (fun f => f.1 == other) =
    (h.fields.find? fun f => f.1 == other).map (changed name change) := by
  rw [List.find?_map]
  simp only [Function.comp_def, changed_fst]

theorem values_update_self :
    (h.update name change).values name = change (h.values name) := by
  by_cases hname : name ∈ h.names
  · rw [update_of_mem hname, values, find_changed, values]
    cases hfound : h.fields.find? fun f => f.1 == name with
    | none => exact absurd hname (find_eq_none_iff.1 hfound)
    | some found => rw [Option.map_some, changed, if_pos (List.find?_some hfound)]
  · rw [update_of_not_mem hname, values_of_not_mem hname, values, List.find?_append,
      find_eq_none_iff.2 hname]
    simp

theorem values_update_of_ne (hother : other ≠ name) :
    (h.update name change).values other = h.values other := by
  by_cases hname : name ∈ h.names
  · rw [update_of_mem hname, values, find_changed, values]
    cases hfound : h.fields.find? fun f => f.1 == other with
    | none => rfl
    | some found =>
      rw [Option.map_some, changed, (mem_and_eq_of_find hfound).2, if_neg (by simpa using hother)]
  · rw [update_of_not_mem hname, values, List.find?_append, values]
    cases h.fields.find? fun f => f.1 == other with
    | some found => rfl
    | none => simp [hother.symm]

theorem IsMap.update (hh : h.IsMap) (hname : fieldName? name = some name)
    (hchange : ∀ vs, change vs ≠ []) : (h.update name change).IsMap where
  nodup := by
    rw [names_update]
    split
    · exact hh.nodup
    · rename_i hnew
      exact List.nodup_append'.2 ⟨hh.nodup, List.nodup_singleton name, by simpa using hnew⟩
  ne_nil := by
    intro f hf
    by_cases hthere : name ∈ h.names
    · rw [update_of_mem hthere] at hf
      obtain ⟨g, hg, rfl⟩ := List.mem_map.1 hf
      rw [changed]
      split
      · exact hchange g.2
      · exact hh.ne_nil g hg
    · rw [update_of_not_mem hthere] at hf
      rcases List.mem_append.1 hf with hf | hf
      · exact hh.ne_nil f hf
      · obtain rfl := List.mem_singleton.1 hf
        exact hchange []
  named := by
    intro other hother
    rcases mem_names_update.1 hother with hother | rfl
    · exact hh.named other hother
    · exact hname

theorem IsMap.insert (hh : h.IsMap) (hname : fieldName? name = some name) (value : Bytes) :
    (h.insert name value).IsMap :=
  hh.update hname fun _ => List.cons_ne_nil value []

/-! ## Names in small letters -/

private theorem toNat_lt_of_isNameChar {c : Char} (hc : isNameChar c = true) : c.toNat < 0x80 := by
  rw [isNameChar, Bool.or_eq_true] at hc
  rcases hc with hc | hc
  · change (decide ('A' ≤ c ∧ c ≤ 'Z') || (decide ('a' ≤ c) && decide (c ≤ 'z')) ||
      (decide ('0' ≤ c) && decide (c ≤ '9'))) = true at hc
    simp only [Bool.or_eq_true, Bool.and_eq_true, decide_eq_true_eq] at hc
    rcases hc with (⟨-, hc⟩ | ⟨-, hc⟩) | ⟨-, hc⟩
    all_goals exact Nat.lt_of_le_of_lt hc (by decide)
  · have hall : ("!#$%&'*+-.^_`|~".toList.all fun d => d.toNat < 0x80) = true := by decide
    exact of_decide_eq_true (List.all_eq_true.1 hall c (by simpa using hc))

/-- A character of a name in small letters is one, and in small letters. -/
private theorem isNameChar_toLower {c : Char} (hc : isNameChar c = true) :
    isNameChar c.toLower = true ∧ c.toLower.toLower = c.toLower := by
  have hall : ∀ n : Fin 0x80, isNameChar (Char.ofNat n) = true →
      isNameChar (Char.ofNat n).toLower = true ∧
        (Char.ofNat n).toLower.toLower = (Char.ofNat n).toLower := by
    decide +kernel
  have hsmall := hall ⟨c.toNat, toNat_lt_of_isNameChar hc⟩
  rw [Char.ofNat_toNat] at hsmall
  exact hsmall hc

theorem fieldName?_eq_some_iff : fieldName? name = some other ↔
    (name.toList ≠ [] ∧ name.toList.length ≤ 65535 ∧ ∀ c ∈ name.toList, isNameChar c = true) ∧
      name.map Char.toLower = other := by
  rw [fieldName?]
  split
  · rename_i hbad
    simp only [reduceCtorEq, false_iff]
    rintro ⟨⟨hne, hlength, hall⟩, -⟩
    simp only [Bool.or_eq_true, List.isEmpty_iff, decide_eq_true_eq, Bool.not_eq_true',
      List.all_eq_false] at hbad
    rcases hbad with (hnil | hlong) | ⟨c, hc, hbad⟩
    · exact hne hnil
    · exact absurd hlength (Nat.not_le.2 hlong)
    · exact hbad (hall c hc)
  · rename_i hgood
    simp only [Bool.or_eq_true, List.isEmpty_iff, decide_eq_true_eq, Bool.not_eq_true',
      not_or, Bool.not_eq_false, List.all_eq_true, Nat.not_lt] at hgood
    rw [Option.some.injEq]
    exact ⟨fun heq => ⟨⟨hgood.1.1, hgood.1.2, hgood.2⟩, heq⟩, And.right⟩

/-- The small letters of a name are a name in small letters. -/
theorem fieldName?_of_fieldName? (hname : fieldName? name = some other) :
    fieldName? other = some other := by
  obtain ⟨⟨hne, hlength, hall⟩, rfl⟩ := fieldName?_eq_some_iff.1 hname
  rw [fieldName?_eq_some_iff, ← String.toList_inj]
  simp only [String.toList_map, List.map_map, List.length_map, List.forall_mem_map, ne_eq,
    List.map_eq_nil_iff]
  exact ⟨⟨hne, hlength, fun c hc => (isNameChar_toLower (hall c hc)).1⟩,
    List.map_congr_left fun c hc => (isNameChar_toLower (hall c hc)).2⟩

private theorem lowerFrom_of_isNameChar {cs before : List Char}
    (hname : ∀ c ∈ cs, isNameChar c = true) : Text.lowerFrom before cs = cs.map Char.toLower := by
  induction cs generalizing before with
  | nil => rfl
  | cons c cs ih =>
    obtain ⟨hc, hcs⟩ := List.forall_mem_cons.1 hname
    have hsmall := toNat_lt_of_isNameChar hc
    have hsigma : ¬ c.toNat = 0x3a3 := by omega
    have hlower : Text.lowerChar c = [c.toLower] := if_pos hsmall
    rw [Text.lowerFrom, ih hcs, decide_eq_false hsigma, hlower]
    rfl

/-- A name in small letters is in lower case. -/
theorem lowercase_of_fieldName? (hname : fieldName? name = some name) :
    Text.lowercase name = name := by
  obtain ⟨⟨-, -, hall⟩, hlower⟩ := fieldName?_eq_some_iff.1 hname
  rw [Text.lowercase, lowerFrom_of_isNameChar hall, ← String.toList_map, hlower,
    String.ofList_toList]

/-- Names and values that make header fields make a map. -/
theorem isMap_ofPairs {pairs : List (String × Bytes)} (hpairs : ofPairs pairs = .ok h) :
    h.IsMap := by
  have hempty : IsMap {} := ⟨List.nodup_nil, by simp, by simp [names]⟩
  rw [ofPairs] at hpairs
  generalize ({} : Headers) = start at hpairs hempty
  induction pairs generalizing start with
  | nil =>
    cases hpairs
    exact hempty
  | cons pair pairs ih =>
    rw [List.foldlM_cons] at hpairs
    obtain ⟨next, hnext, hrest⟩ := exists_of_bind hpairs
    refine ih next hrest ?_
    obtain ⟨spelled, value⟩ := pair
    dsimp only at hnext
    cases hname : fieldName? spelled with
    | none =>
      rw [hname] at hnext
      cases hnext
    | some name =>
      rw [hname] at hnext
      dsimp only at hnext
      split at hnext
      · cases hnext
        exact hempty.update (fieldName?_of_fieldName? hname) fun vs => by simp
      · cases hnext

/-! ## Fields that are taken out -/

theorem remove_of_not_mem (hname : name ∉ h.names) : h.remove name = h := by
  have hnone : h.fields.dropWhile (fun f => f.1 != name) = [] := by
    rw [List.dropWhile_eq_nil_iff]
    intro f hf
    exact bne_iff_ne.2 fun hsame => hname (List.mem_map.2 ⟨f, hf, hsame⟩)
  rw [remove, List.span_eq_takeWhile_dropWhile, hnone]

/-- A field is taken out and the others stay, one of them in its place. -/
theorem exists_perm_remove (hname : name ∈ h.names) :
    ∃ vs, h.fields.Perm ((name, vs) :: (h.remove name).fields) := by
  have hparts := List.takeWhile_append_dropWhile (p := fun f => f.1 != name) (l := h.fields)
  have hfirst := List.head?_dropWhile_not (fun f : String × List Bytes => f.1 != name) h.fields
  rw [remove, List.span_eq_takeWhile_dropWhile]
  generalize h.fields.takeWhile (fun f => f.1 != name) = before at hparts ⊢
  cases hfound : h.fields.dropWhile fun f => f.1 != name with
  | nil =>
    obtain ⟨f, hf, hsame⟩ := List.mem_map.1 hname
    exact absurd hsame (bne_iff_ne.1 (List.dropWhile_eq_nil_iff.1 hfound f hf))
  | cons f after =>
    rw [hfound] at hparts hfirst
    obtain rfl : f.1 = name := by simpa using hfirst
    rw [← hparts]
    refine ⟨f.2, List.perm_middle.trans (.cons f ?_)⟩
    dsimp only
    cases hlast : after.getLast? with
    | none => rw [List.getLast?_eq_none_iff.1 hlast, List.append_nil]
    | some last =>
      -- The last field comes before the others.
      refine List.Perm.append_left before ?_
      nth_rewrite 1 [← List.dropLast_append_getLast? last hlast]
      exact List.perm_append_singleton last after.dropLast

theorem names_remove (hname : name ∈ h.names) :
    h.names.Perm (name :: (h.remove name).names) := by
  obtain ⟨vs, hperm⟩ := exists_perm_remove hname
  exact hperm.map (·.1)

theorem IsMap.remove (hh : h.IsMap) (name : String) : (h.remove name).IsMap := by
  by_cases hname : name ∈ h.names
  · obtain ⟨vs, hperm⟩ := exists_perm_remove hname
    have hnames := names_remove hname
    exact {
      nodup := (List.nodup_cons.1 (hnames.nodup_iff.1 hh.nodup)).2
      ne_nil := fun f hf => hh.ne_nil f (hperm.mem_iff.2 (List.mem_cons_of_mem _ hf))
      named := fun other hother =>
        hh.named other (hnames.mem_iff.2 (List.mem_cons_of_mem _ hother)) }
  · rwa [remove_of_not_mem hname]

theorem mem_names_remove (hh : h.IsMap) :
    other ∈ (h.remove name).names ↔ other ∈ h.names ∧ other ≠ name := by
  by_cases hname : name ∈ h.names
  · have hnames := names_remove hname
    have hnew := (List.nodup_cons.1 (hnames.nodup_iff.1 hh.nodup)).1
    rw [hnames.mem_iff, List.mem_cons]
    constructor
    · intro hother
      exact ⟨.inr hother, fun hsame => hnew (hsame ▸ hother)⟩
    · rintro ⟨hsame | hother, hne⟩
      · exact absurd hsame hne
      · exact hother
  · rw [remove_of_not_mem hname]
    exact ⟨fun hother => ⟨hother, fun hsame => hname (hsame ▸ hother)⟩, And.left⟩

theorem values_remove (hh : h.IsMap) (hother : other ≠ name) :
    (h.remove name).values other = h.values other := by
  by_cases hthere : other ∈ h.names
  · obtain ⟨f, hf, rfl⟩ := List.mem_map.1 hthere
    by_cases hname : name ∈ h.names
    · obtain ⟨vs, hperm⟩ := exists_perm_remove hname
      rcases List.mem_cons.1 (hperm.mem_iff.1 hf) with rfl | hleft
      · exact absurd rfl hother
      · rw [values_of_mem (hh.remove name).nodup hleft, values_of_mem hh.nodup hf]
    · rw [remove_of_not_mem hname]
  · rw [values_of_not_mem hthere, values_of_not_mem]
    exact fun hleft => hthere ((mem_names_remove hh).1 hleft).1

/-- A new field that was set can be taken out again. -/
theorem remove_insert (hname : name ∉ h.names) : (h.insert name value).remove name = h := by
  have hothers : ∀ f ∈ h.fields, (f.1 != name) = true := fun f hf =>
    bne_iff_ne.2 fun hsame => hname (List.mem_map.2 ⟨f, hf, hsame⟩)
  rw [Headers.insert, update_of_not_mem hname, remove, List.span_eq_takeWhile_dropWhile,
    List.takeWhile_append_of_pos hothers, List.dropWhile_append_of_pos hothers]
  simp

/-! ## Several fields -/

/-- Sets fields one after the other. -/
def setAll (h : Headers) (fields : List (String × String)) : Headers :=
  fields.foldl (fun h f => h.insert f.1 (utf8 f.2)) h

theorem mem_names_setAll :
    name ∈ (h.setAll fields).names ↔ name ∈ h.names ∨ name ∈ fields.map (·.1) := by
  induction fields generalizing h with
  | nil => simp [setAll]
  | cons f fields ih =>
    change name ∈ ((h.insert f.1 (utf8 f.2)).setAll fields).names ↔ _
    rw [ih, Headers.insert, mem_names_update, List.map_cons, List.mem_cons, or_assoc]

theorem values_setAll_of_not_mem (hname : name ∉ fields.map (·.1)) :
    (h.setAll fields).values name = h.values name := by
  induction fields generalizing h with
  | nil => rfl
  | cons f fields ih =>
    rw [List.map_cons, List.mem_cons, not_or] at hname
    change ((h.insert f.1 (utf8 f.2)).setAll fields).values name = _
    rw [ih hname.2, Headers.insert, values_update_of_ne hname.1]

theorem values_setAll_of_mem (hnodup : (fields.map (·.1)).Nodup) {field : String × String}
    (hfield : field ∈ fields) : (h.setAll fields).values field.1 = [utf8 field.2] := by
  induction fields generalizing h with
  | nil => exact absurd hfield List.not_mem_nil
  | cons f fields ih =>
    rw [List.map_cons, List.nodup_cons] at hnodup
    change ((h.insert f.1 (utf8 f.2)).setAll fields).values field.1 = _
    rcases List.mem_cons.1 hfield with rfl | hfield
    · rw [values_setAll_of_not_mem hnodup.1, Headers.insert, values_update_self]
    · exact ih hnodup.2 hfield

theorem IsMap.setAll (hh : h.IsMap) (hfields : ∀ f ∈ fields, fieldName? f.1 = some f.1) :
    (h.setAll fields).IsMap := by
  induction fields generalizing h with
  | nil => exact hh
  | cons f fields ih =>
    obtain ⟨hf, hfields⟩ := List.forall_mem_cons.1 hfields
    exact ih (hh.insert hf _) hfields

theorem names_setAll_congr {fields' : List (String × String)} (hnames : h.names = h'.names)
    (hsame : fields.map (·.1) = fields'.map (·.1)) :
    (h.setAll fields).names = (h'.setAll fields').names := by
  induction fields generalizing h h' fields' with
  | nil =>
    obtain rfl := List.map_eq_nil_iff.1 hsame.symm
    exact hnames
  | cons f fields ih =>
    obtain ⟨f', rest, rfl, hf, hrest⟩ := List.map_eq_cons_iff.1 hsame.symm
    have hnext : (h.insert f.1 (utf8 f.2)).names = (h'.insert f'.1 (utf8 f'.2)).names := by
      rw [Headers.insert, Headers.insert, names_update, names_update, hnames, hf]
    have hset := ih hnext hrest.symm
    exact hset

/-- Fields that are there keep their places. -/
theorem names_setAll_of_subset (hfields : ∀ f ∈ fields, f.1 ∈ h.names) :
    (h.setAll fields).names = h.names := by
  induction fields generalizing h with
  | nil => rfl
  | cons f fields ih =>
    obtain ⟨hf, hfields⟩ := List.forall_mem_cons.1 hfields
    have hnames : (h.insert f.1 (utf8 f.2)).names = h.names := by
      rw [Headers.insert, names_update, if_pos hf]
    exact (ih (hnames ▸ hfields)).trans hnames

/-- Of fields that are set twice the first values leave no trace. -/
theorem setAll_setAll {fields' : List (String × String)} (hh : h.IsMap)
    (hfields : ∀ f ∈ fields, fieldName? f.1 = some f.1) (hnodup : (fields.map (·.1)).Nodup)
    (hsame : fields.map (·.1) = fields'.map (·.1)) :
    (h.setAll fields).setAll fields' = h.setAll fields' := by
  have hthere : ∀ f ∈ fields', f.1 ∈ (h.setAll fields).names := fun f hf =>
    mem_names_setAll.2 (.inr (hsame ▸ List.mem_map_of_mem hf))
  have hnames : ((h.setAll fields).setAll fields').names = (h.setAll fields).names :=
    names_setAll_of_subset hthere
  -- The places are those of the first time, and the values those of the second.
  refine ext_of_values (hnames ▸ (hh.setAll hfields).nodup)
    (hnames.trans (names_setAll_congr rfl hsame)) fun name => ?_
  by_cases hname : name ∈ fields'.map (·.1)
  · obtain ⟨f, hf, rfl⟩ := List.mem_map.1 hname
    rw [values_setAll_of_mem (hsame ▸ hnodup) hf, values_setAll_of_mem (hsame ▸ hnodup) hf]
  · rw [values_setAll_of_not_mem hname, values_setAll_of_not_mem hname,
      values_setAll_of_not_mem (hsame ▸ hname)]

/-! ## Values with their names -/

/-- The pairs of a name are its values, in their order. -/
theorem filter_pairs (hnodup : h.names.Nodup) (name : String) :
    h.pairs.filter (fun p => p.1 = name) = (h.values name).map fun v => (name, v) := by
  obtain ⟨fields⟩ := h
  induction fields with
  | nil => rfl
  | cons f fields ih =>
    obtain ⟨hnew, hnodup⟩ := List.nodup_cons.1 hnodup
    have hpairs : pairs ⟨f :: fields⟩ = (f.2.map fun v => (f.1, v)) ++ pairs ⟨fields⟩ := rfl
    rw [hpairs, List.filter_append, ih hnodup, List.filter_map]
    by_cases hname : f.1 = name
    · subst hname
      have hvalues : values ⟨f :: fields⟩ f.1 = f.2 := by simp [values]
      rw [values_of_not_mem hnew, hvalues]
      simp [Function.comp_def]
    · have hvalues : values ⟨f :: fields⟩ name = values ⟨fields⟩ name := by simp [values, hname]
      rw [hvalues]
      simp [Function.comp_def, hname]

theorem mem_pairs (hnodup : h.names.Nodup) {pair : String × Bytes} :
    pair ∈ h.pairs ↔ pair.2 ∈ h.values pair.1 := by
  have hself : pair ∈ h.pairs ↔ pair ∈ h.pairs.filter fun p => p.1 = pair.1 := by
    simp [List.mem_filter]
  rw [hself, filter_pairs hnodup, List.mem_map]
  constructor
  · rintro ⟨v, hv, hpair⟩
    rwa [← hpair]
  · intro hvalue
    exact ⟨pair.2, hvalue, rfl⟩

theorem mem_map_pairs (hh : h.IsMap) : name ∈ h.pairs.map (·.1) ↔ name ∈ h.names := by
  rw [← hh.values_ne_nil_iff, List.mem_map]
  constructor
  · rintro ⟨pair, hpair, rfl⟩
    exact List.ne_nil_of_mem ((mem_pairs hh.nodup).1 hpair)
  · intro hvalues
    obtain ⟨v, hv⟩ := List.exists_mem_of_ne_nil _ hvalues
    exact ⟨(name, v), (mem_pairs hh.nodup).2 hv, rfl⟩

end BucketTransfer.Signing.Headers
