import BucketTransfer.Proofs.KeyMap.Lookup
import BucketTransfer.Proofs.Text.Pieces
import BucketTransfer.Proofs.Text.Values
import BucketTransfer.Signing.Canonical
import Mathlib.Data.List.Induction

/-!
# What canonical requests tell

The text of a request that is signed can be taken apart again, although nothing in it says how long
its parts are: into method, path, query, the header fields with their values, and the digest of the
body. What it tells of a value are its words.
-/
namespace BucketTransfer.Signing

section Names
variable {names : List String} {name : String}

private theorem mem_loop {a : String} {done : List String} :
    name ∈ List.eraseRepsBy.loop (· == ·) a names done ↔ name ∈ a :: names ∨ name ∈ done := by
  induction names generalizing a done with
  | nil =>
    rw [List.eraseRepsBy.loop, List.mem_reverse, List.mem_cons, List.mem_singleton]
  | cons b names ih =>
    rw [List.eraseRepsBy.loop]
    split
    · rename_i hsame
      obtain rfl := beq_iff_eq.1 hsame
      rw [ih]
      simp
    · rw [ih]
      simp only [List.mem_cons]
      tauto

/-- The sorted names are those that were given. -/
theorem mem_sortedNames : name ∈ sortedNames names ↔ name ∈ names := by
  have hsort : name ∈ names.mergeSort (fun a b => !decide (b < a)) ↔ name ∈ names :=
    List.mem_mergeSort
  rw [sortedNames, ← hsort]
  cases names.mergeSort fun a b => !decide (b < a) with
  | nil => rfl
  | cons a rest =>
    rw [List.eraseReps, List.eraseRepsBy, mem_loop]
    simp

/-- Names in order stay so when repeated ones go, if those that were kept (the last one first) come
before them. -/
private theorem pairwise_loop {a : String} {done : List String}
    (hnames : (a :: names).Pairwise (· ≤ ·)) (hdone : (a :: done).Pairwise (· > ·)) :
    (List.eraseRepsBy.loop (· == ·) a names done).Pairwise (· < ·) := by
  induction names generalizing a done with
  | nil =>
    rw [List.eraseRepsBy.loop, List.pairwise_reverse]
    exact hdone
  | cons b names ih =>
    obtain ⟨hfirst, hrest⟩ := List.pairwise_cons.1 hnames
    rw [List.eraseRepsBy.loop]
    split
    · rename_i hsame
      obtain rfl := beq_iff_eq.1 hsame
      exact ih hrest hdone
    · rename_i hother
      have hlt : a < b := Decidable.by_contra fun hnot => beq_eq_false_iff_ne.1 hother
        (String.le_antisymm (hfirst b List.mem_cons_self) (String.not_lt.1 hnot))
      refine ih hrest (List.pairwise_cons.2 ⟨fun c hc => ?_, hdone⟩)
      rcases List.mem_cons.1 hc with rfl | hc
      · exact hlt
      · exact String.lt_trans (List.rel_of_pairwise_cons hdone hc) hlt

theorem not_decide_lt_iff {a b : String} : (!decide (b < a)) = true ↔ a ≤ b := by
  rw [Bool.not_eq_true', decide_eq_false_iff_not, String.not_lt]

/-- The sorted names stand in order, each once. -/
theorem pairwise_sortedNames (names : List String) : (sortedNames names).Pairwise (· < ·) := by
  have hsort : (names.mergeSort fun a b => !decide (b < a)).Pairwise (· ≤ ·) := by
    refine (List.pairwise_mergeSort (fun a b c hab hbc => ?_) (fun a b => ?_) names).imp
      not_decide_lt_iff.1
    · exact not_decide_lt_iff.2
        (String.le_trans (not_decide_lt_iff.1 hab) (not_decide_lt_iff.1 hbc))
    · rw [Bool.or_eq_true, not_decide_lt_iff, not_decide_lt_iff]
      exact String.le_total a b
  rw [sortedNames]
  generalize names.mergeSort (fun a b => !decide (b < a)) = sorted at hsort
  cases sorted with
  | nil => exact List.Pairwise.nil
  | cons a rest => exact pairwise_loop hsort (List.pairwise_singleton _ a)

/-- The same names come in the same order. -/
theorem sortedNames_congr {names' : List String} (hsame : ∀ name, name ∈ names ↔ name ∈ names') :
    sortedNames names = sortedNames names' := by
  have hnodup : ∀ names : List String, (sortedNames names).Nodup := fun names => by
    refine (pairwise_sortedNames names).imp fun hlt => ?_
    rintro rfl
    exact String.lt_irrefl _ hlt
  refine List.Perm.eq_of_pairwise
    (fun a b _ _ hab hba => absurd (String.lt_trans hab hba) (String.lt_irrefl a))
    (pairwise_sortedNames names) (pairwise_sortedNames names') ?_
  refine (List.perm_ext_iff_of_nodup (hnodup _) (hnodup _)).2 fun name => ?_
  rw [mem_sortedNames, mem_sortedNames, hsame]

end Names

/-- The values of a name as they are signed, each trimmed and with single spaces. -/
def valuesOf (headers : List (String × String)) (name : String) : List String :=
  (headers.filter fun h => h.1 = name).map fun h => Text.collapse (Text.trim h.2)

/-- The value under which a name is signed: its values with commas between them. -/
def valueOf (headers : List (String × String)) (name : String) : Option String :=
  if valuesOf headers name = [] then none else some (",".intercalate (valuesOf headers name))

section Values
variable {headers headers' : List (String × String)} {name value : String}

/-- A value is signed as its words with a space between each two. -/
theorem toList_valuesOf (headers : List (String × String)) (name : String) :
    (valuesOf headers name).map String.toList =
      (headers.filter fun h => h.1 = name).map fun h =>
        [' '].intercalate (Text.words h.2.toList) := by
  rw [valuesOf, List.map_map]
  exact List.map_congr_left fun h _ => Text.toList_collapse_trim h.2

/-- The values of a name are signed alike just if they have the same words. -/
theorem valuesOf_eq_iff : valuesOf headers name = valuesOf headers' name ↔
    ((headers.filter fun h => h.1 = name).map fun h => Text.words h.2.toList) =
      (headers'.filter fun h => h.1 = name).map fun h => Text.words h.2.toList := by
  have hwords : ∀ headers : List (String × String),
      ((valuesOf headers name).map fun value => Text.words value.toList) =
        (headers.filter fun h => h.1 = name).map fun h => Text.words h.2.toList := fun headers => by
    simp only [valuesOf, List.map_map, Function.comp_def, Text.words_collapse_trim]
  constructor
  · intro h
    rw [← hwords, ← hwords, h]
  · intro h
    have htexts := congrArg (List.map fun ws => [' '].intercalate ws) h
    rw [List.map_map, List.map_map] at htexts
    have hchars : (valuesOf headers name).map String.toList =
        (valuesOf headers' name).map String.toList := by
      rw [toList_valuesOf, toList_valuesOf]
      exact htexts
    have hinjective : Function.Injective String.toList := fun _ _ => String.toList_inj.1
    exact List.map_injective_iff.2 hinjective hchars

theorem exists_of_valueOf (h : valueOf headers name = some value) : ∃ h ∈ headers, h.1 = name := by
  by_contra hnone
  have hempty : valuesOf headers name = [] := by
    rw [valuesOf, List.map_eq_nil_iff, List.filter_eq_nil_iff]
    intro field hfield hname
    exact hnone ⟨field, hfield, of_decide_eq_true hname⟩
  rw [valueOf, if_pos hempty] at h
  cases h

theorem valuesOf_append (field : String × String) :
    valuesOf (headers ++ [field]) name =
      valuesOf headers name ++
        if field.1 = name then [Text.collapse (Text.trim field.2)] else [] := by
  rw [valuesOf, List.filter_append, List.map_append, valuesOf]
  congr 1
  by_cases h : field.1 = name
  · simp [h]
  · simp [h]

private theorem headerValues_append (field : String × String) :
    headerValues (headers ++ [field]) =
      match (headerValues headers).get? (Text.lowercase field.1) with
      | none => (headerValues headers).insert (Text.lowercase field.1)
          (Text.collapse (Text.trim field.2))
      | some old => (headerValues headers).insert (Text.lowercase field.1)
          (old ++ "," ++ Text.collapse (Text.trim field.2)) := by
  rw [headerValues, List.foldl_append]
  rfl

/-- The map of all values has the value of each name, if the names are in small letters. -/
theorem get?_headerValues (h : ∀ field ∈ headers, Text.lowercase field.1 = field.1)
    (name : String) : (headerValues headers).get? name = valueOf headers name := by
  induction headers using List.reverseRecOn generalizing name with
  | nil => rfl
  | append_singleton headers field ih =>
    have hfield : Text.lowercase field.1 = field.1 := h field (by simp)
    replace ih := ih fun other hother => h other (List.mem_append_left _ hother)
    rw [headerValues_append, hfield, ih field.1]
    by_cases hname : name = field.1
    · subst hname
      rw [valueOf, valueOf, valuesOf_append, if_pos rfl]
      by_cases hnone : valuesOf headers field.1 = []
      · rw [hnone]
        simp
      · rw [if_neg hnone, if_neg (by simp), String.intercalate_append_of_ne_nil hnone (by simp),
          String.intercalate_singleton]
        simp
    · have hsame : valueOf (headers ++ [field]) name = valueOf headers name := by
        rw [valueOf, valuesOf_append, if_neg (Ne.symm hname), List.append_nil, valueOf]
      rw [hsame, ← ih name]
      split
      all_goals exact KeyMap.get?_insert_of_ne hname

end Values

section Blanks

private theorem mem_collapseFrom {inRun : Bool} {cs : List Char} {c : Char}
    (h : c ∈ Text.collapseFrom inRun cs) : c = ' ' ∨ Text.isBlank c = false := by
  fun_induction Text.collapseFrom inRun cs with
  | case1 => exact absurd h List.not_mem_nil
  | case2 d cs hblank ih => exact ih h
  | case3 inRun d cs hblank hrun ih =>
    rcases List.mem_cons.1 h with rfl | h
    · exact .inl rfl
    · exact ih h
  | case4 inRun d cs hblank ih =>
    rcases List.mem_cons.1 h with rfl | h
    · exact .inr (Bool.eq_false_iff.2 hblank)
    · exact ih h

/-- What is signed of a value is one line. -/
theorem newline_not_mem_of_valueOf {headers : List (String × String)} {name value : String}
    (h : valueOf headers name = some value) : '\n' ∉ value.toList := by
  rw [valueOf] at h
  split at h
  · cases h
  · cases h
    intro hmem
    rcases Text.mem_intercalate hmem with hcomma | ⟨text, htext, hmem⟩
    · exact absurd hcomma (by decide)
    · obtain ⟨field, -, rfl⟩ := List.mem_map.1 htext
      rw [Text.collapse, String.toList_ofList] at hmem
      rcases mem_collapseFrom hmem with hspace | hblank
      · exact absurd hspace (by decide)
      · exact absurd hblank (by decide)

end Blanks

/-- Requests that can be told apart: the parts that are one line each hold no line break, and the
names of the header fields, which are in small letters and all signed, hold no colon. -/
structure Request.Separable (r : Request) : Prop where
  method : '\n' ∉ r.method.toList
  uri : '\n' ∉ r.uri.toList
  query : '\n' ∉ r.query.toList
  payloadHash : '\n' ∉ r.payloadHash.toList
  names : ∀ h ∈ r.headers, '\n' ∉ h.1.toList ∧ ':' ∉ h.1.toList
  lower : ∀ h ∈ r.headers, Text.lowercase h.1 = h.1
  signed : ∀ h ∈ r.headers, h.1 ∈ r.signed

/-- Requests that are the same as far as they are signed. -/
structure Request.Same (r r' : Request) : Prop where
  method : r.method = r'.method
  uri : r.uri = r'.uri
  query : r.query = r'.query
  payloadHash : r.payloadHash = r'.payloadHash
  values : ∀ name, valueOf r.headers name = valueOf r'.headers name

namespace Request
variable {r r' : Request} {name value : String}

/-- The line of a header field. -/
def line (entry : String × String) : String := entry.1 ++ ":" ++ entry.2

/-- The signed header fields that are there, in order. -/
def entries (r : Request) : List (String × String) :=
  (sortedNames r.signed).filterMap fun name =>
    ((headerValues r.headers).get? name).map fun value => (name, value)

theorem canonicalHeaders_eq (r : Request) :
    canonicalHeaders r.headers r.signed = "\n".intercalate (r.entries.map line) := by
  rw [canonicalHeaders, entries, List.map_filterMap]
  simp only [Option.map_map]
  rfl

theorem mem_entries (h : r.Separable) :
    (name, value) ∈ r.entries ↔ valueOf r.headers name = some value := by
  rw [entries, List.mem_filterMap]
  constructor
  · rintro ⟨found, -, hfound⟩
    obtain ⟨value, hvalue, heq⟩ := Option.map_eq_some_iff.1 hfound
    cases heq
    rwa [← get?_headerValues h.lower]
  · intro hvalue
    obtain ⟨field, hfield, rfl⟩ := exists_of_valueOf hvalue
    refine ⟨field.1, mem_sortedNames.2 (h.signed field hfield), ?_⟩
    rw [get?_headerValues h.lower, hvalue]
    rfl

/-- The name of an entry is one of the request's. -/
private theorem Separable.plain (h : r.Separable) {entry : String × String}
    (he : entry ∈ r.entries) : '\n' ∉ entry.1.toList ∧ ':' ∉ entry.1.toList := by
  obtain ⟨field, hfield, hname⟩ := exists_of_valueOf ((mem_entries h).1 he)
  rw [← hname]
  exact h.names field hfield

private theorem Separable.line (h : r.Separable) :
    ∀ l ∈ r.entries.map fun e => (line e).toList, l ≠ [] ∧ '\n' ∉ l := by
  intro l hl
  obtain ⟨entry, he, rfl⟩ := List.mem_map.1 hl
  have hvalue := newline_not_mem_of_valueOf ((mem_entries h).1 he)
  rw [Request.line, String.toList_append, String.toList_append]
  refine ⟨by simp, ?_⟩
  simp only [List.mem_append, not_or]
  exact ⟨⟨(h.plain he).1, by decide⟩, hvalue⟩

/-- Lines of header fields tell what the names and the values are. -/
private theorem valueOf_of_lines (h : r.Separable) (h' : r'.Separable)
    (hlines : (r.entries.map fun e => (line e).toList) = r'.entries.map fun e => (line e).toList)
    (hvalue : valueOf r.headers name = some value) : valueOf r'.headers name = some value := by
  have hentry := (mem_entries h).2 hvalue
  have hline : (line (name, value)).toList ∈ r'.entries.map fun e => (line e).toList := by
    rw [← hlines]
    exact List.mem_map_of_mem hentry
  obtain ⟨⟨name', value'⟩, hentry', heq⟩ := List.mem_map.1 hline
  simp only [line, String.toList_append, List.append_assoc] at heq
  obtain ⟨hsameName, hsameValue⟩ := Text.append_cons_inj (h'.plain hentry').2 (h.plain hentry).2 heq
  obtain rfl : name' = name := String.toList_inj.1 hsameName
  obtain rfl : value' = value := String.toList_inj.1 hsameValue
  exact (mem_entries h').1 hentry'

/-- The text of a request, with the lines of its fields as a block that an empty line ends. -/
private theorem toList_canonical (r : Request) :
    r.canonical.toList =
      r.method.toList ++ '\n' :: (r.uri.toList ++ '\n' :: (r.query.toList ++ '\n' ::
        (Text.block '\n' (r.entries.map fun e => (line e).toList) ++ '\n' ::
          ((if r.entries = [] then ['\n'] else []) ++
            ((signedHeaders r.signed).toList ++ '\n' :: r.payloadHash.toList))))) := by
  have hbreak : "\n".toList = ['\n'] := rfl
  have hblock : ∀ rest : List Char,
      ['\n'].intercalate (r.entries.map fun e => (line e).toList) ++ '\n' :: '\n' :: rest =
        Text.block '\n' (r.entries.map fun e => (line e).toList) ++
          '\n' :: ((if r.entries = [] then ['\n'] else []) ++ rest) := by
    intro rest
    by_cases hnone : r.entries = []
    · simp [hnone, Text.block]
    · rw [if_neg hnone]
      exact Text.intercalate_append (by simpa using hnone)
  rw [canonical, canonicalHeaders_eq, ← hblock]
  simp only [String.toList_intercalate, List.map_cons, List.map_nil, List.map_map,
    List.intercalate_cons_cons, List.intercalate_singleton, List.append_assoc, hbreak]
  rfl

/-- A canonical text tells what the request is. -/
theorem same_of_canonical (h : r.Separable) (h' : r'.Separable) (heq : r.canonical = r'.canonical) :
    r.Same r' := by
  have htext := congrArg String.toList heq
  rw [toList_canonical, toList_canonical] at htext
  obtain ⟨hmethod, htext⟩ := Text.append_cons_inj h.method h'.method htext
  obtain ⟨huri, htext⟩ := Text.append_cons_inj h.uri h'.uri htext
  obtain ⟨hquery, htext⟩ := Text.append_cons_inj h.query h'.query htext
  obtain ⟨hlines, htext⟩ := Text.block_inj h.line h'.line htext
  have hnone : r.entries = [] ↔ r'.entries = [] := by
    rw [← List.map_eq_nil_iff (f := fun e => (line e).toList), hlines, List.map_eq_nil_iff]
  simp only [hnone, List.append_cancel_left_eq] at htext
  obtain ⟨-, hhash⟩ := Text.append_cons_inj_right h.payloadHash h'.payloadHash htext
  exact {
    method := String.toList_inj.1 hmethod
    uri := String.toList_inj.1 huri
    query := String.toList_inj.1 hquery
    payloadHash := String.toList_inj.1 hhash
    values := fun name => Option.ext fun value =>
      ⟨valueOf_of_lines h h' hlines, valueOf_of_lines h' h hlines.symm⟩ }

end Request

end BucketTransfer.Signing
