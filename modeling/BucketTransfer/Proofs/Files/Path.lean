import BucketTransfer.Files.Path
import BucketTransfer.Proofs.Text.Pieces
import Mathlib.Data.List.Induction

/-!
# Ways down

A path is told by its segments. What is joined to another path leads down from there if its segments
are names, and the path above it leads down by one name less.
-/
namespace BucketTransfer.Files.Path

/-- The segments of a path that name something. -/
def names (path : String) : List String := (segments path).filter fun s => s ≠ "" ∧ s ≠ "."

/-- A segment that leads to what has its name. -/
structure IsName (name : String) : Prop where
  slash : '/' ∉ name.toList
  empty : name ≠ ""
  current : name ≠ "."
  up : name ≠ ".."

/-- A path leads down from another one, by some names. -/
structure LeadsDown (base path : String) (down : List String) : Prop where
  names : ∀ name ∈ down, IsName name
  components : components path = Path.components base ++ down.map .name

variable {base path name first : String} {down rest texts : List String}

section Segments

theorem segments_ne_nil (path : String) : segments path ≠ [] := by
  rw [segments, Text.split_eq_splitOn, ne_eq, List.map_eq_nil_iff]
  exact List.splitOn_ne_nil '/' path.toList

theorem slash_not_mem_of_mem_segments (h : name ∈ segments path) : '/' ∉ name.toList := by
  obtain ⟨cs, hcs, rfl⟩ := List.mem_map.1 h
  rw [String.toList_ofList]
  exact Text.not_mem_of_mem_split hcs

private theorem toList_intercalate (texts : List String) :
    ("/".intercalate texts).toList = ['/'].intercalate (texts.map String.toList) :=
  String.toList_intercalate

theorem intercalate_segments (path : String) : "/".intercalate (segments path) = path := by
  apply String.toList_injective
  have hpieces : (segments path).map String.toList = Text.split '/' path.toList := by
    simp [segments, Function.comp_def]
  rw [toList_intercalate, hpieces, Text.intercalate_split]

theorem segments_intercalate (hne : texts ≠ []) (h : ∀ text ∈ texts, '/' ∉ text.toList) :
    segments ("/".intercalate texts) = texts := by
  rw [segments, toList_intercalate, Text.split_intercalate]
  · simp [Function.comp_def]
  · simpa using hne
  · simpa using h

/-- A slash between two texts keeps their segments apart. -/
theorem segments_append (base path : String) :
    segments (base ++ "/" ++ path) = segments base ++ segments path := by
  have hslash : (base ++ "/" ++ path).toList = base.toList ++ '/' :: path.toList := by simp
  rw [segments, hslash, Text.split_append, List.map_append, segments, segments]

private theorem startsWith_slash_iff :
    path.startsWith "/" = true ↔ ∃ cs, path.toList = '/' :: cs := by
  rw [String.startsWith_string_iff]
  constructor
  · rintro ⟨cs, hcs⟩
    exact ⟨cs, hcs.symm⟩
  · rintro ⟨cs, hcs⟩
    exact ⟨cs, hcs.symm⟩

private theorem exists_of_endsWith_slash (h : path.endsWith "/" = true) :
    ∃ front : String, path = front ++ "/" := by
  rw [String.endsWith, String.Slice.endsWith_string_iff, String.copy_toSlice] at h
  obtain ⟨cs, hcs⟩ := h
  exact ⟨.ofList cs, String.toList_injective (by simp [← hcs])⟩

/-- What starts with a slash has an empty segment in front, and nothing else has but the empty
path. -/
theorem startsWith_slash_iff_segments :
    path.startsWith "/" = true ↔ (segments path).head? = some "" ∧ path ≠ "" := by
  rw [startsWith_slash_iff]
  constructor
  · rintro ⟨cs, hcs⟩
    refine ⟨?_, fun hempty => ?_⟩
    · simp [segments, hcs, Text.split]
    · simp [hempty] at hcs
  · rintro ⟨hhead, hne⟩
    obtain ⟨rest, hrest⟩ : ∃ rest, segments path = "" :: rest := List.head?_eq_some_iff.1 hhead
    have hpath := intercalate_segments path
    rw [hrest] at hpath
    cases rest with
    | nil => exact absurd hpath.symm (by simpa using hne)
    | cons next rest =>
      rw [String.intercalate_cons_cons] at hpath
      exact ⟨("/".intercalate (next :: rest)).toList, by rw [← hpath]; simp⟩

end Segments

section Components

/-- What the first segment of a path stands for. -/
private def ofFirst (s : String) : List Component :=
  if s = "" then [.root] else if s = "." then [.current] else (Component.ofSegment s).toList

private theorem ofSegment_of_isName (h : IsName name) :
    Component.ofSegment name = some (.name name) := by
  simp [Component.ofSegment, h.empty, h.current, h.up]

private theorem components_of_segments (h : segments path = first :: rest) (hpath : path ≠ "") :
    components path = ofFirst first ++ rest.filterMap Component.ofSegment := by
  rw [components, h]
  split
  · rename_i heq
    obtain ⟨rfl, rfl⟩ := List.cons.inj heq
    simp [ofFirst, hpath]
  · rename_i heq
    obtain ⟨rfl, rfl⟩ := List.cons.inj heq
    simp [ofFirst]
  · rename_i hempty hcurrent
    have hfirst : first ≠ "" := by
      rintro rfl
      exact hempty _ rfl
    have hdot : first ≠ "." := by
      rintro rfl
      exact hcurrent _ rfl
    rw [ofFirst, if_neg hfirst, if_neg hdot]
    cases hvalue : Component.ofSegment first <;> simp [hvalue]

private theorem filterMap_of_names (h : ∀ name ∈ down, IsName name) :
    down.filterMap Component.ofSegment = down.map .name := by
  induction down with
  | nil => rfl
  | cons name down ih =>
    obtain ⟨hname, hdown⟩ := List.forall_mem_cons.1 h
    rw [List.filterMap_cons, ofSegment_of_isName hname, ih hdown, List.map_cons]

private theorem ofFirst_of_isName (h : IsName name) : ofFirst name = [.name name] := by
  rw [ofFirst, if_neg h.empty, if_neg h.current, ofSegment_of_isName h, Option.toList_some]

private theorem ne_empty_of_segments (h : segments path = first :: rest)
    (hne : first ≠ "" ∨ rest ≠ []) : path ≠ "" := by
  rintro rfl
  obtain ⟨rfl, rfl⟩ := List.cons.inj (h : [""] = first :: rest)
  simp at hne

/-- A path that starts with a slash starts at the root. -/
theorem exists_of_startsWith_slash (h : path.startsWith "/" = true) :
    ∃ rest, components path = .root :: rest := by
  obtain ⟨hhead, hne⟩ := startsWith_slash_iff_segments.1 h
  obtain ⟨rest, hrest⟩ := List.head?_eq_some_iff.1 hhead
  exact ⟨_, components_of_segments hrest hne⟩

/-- In any other path only a dot in front stands for something without being a name or leading up.
-/
theorem components_of_relative (h : path.startsWith "/" = false) :
    components path = (if (segments path).head? = some "." then [.current] else []) ++
      (segments path).filterMap Component.ofSegment := by
  by_cases hempty : path = ""
  · subst hempty
    rfl
  obtain ⟨first, rest, hsegments⟩ := List.exists_cons_of_ne_nil (segments_ne_nil path)
  have hfirst : first ≠ "" := by
    rintro rfl
    rw [← Bool.not_eq_true, startsWith_slash_iff_segments, hsegments] at h
    exact h ⟨rfl, hempty⟩
  rw [components_of_segments hsegments hempty, hsegments, ofFirst, if_neg hfirst]
  by_cases hdot : first = "."
  · simp [hdot, Component.ofSegment]
  · cases hvalue : Component.ofSegment first <;> simp [hdot, hvalue]

/-- Names that are joined lead down from nothing. -/
theorem components_of_names (hne : down ≠ []) (h : ∀ name ∈ down, IsName name) :
    components ("/".intercalate down) = down.map .name := by
  have hsegments := segments_intercalate hne fun name hname => (h name hname).slash
  obtain ⟨name, down, rfl⟩ := List.exists_cons_of_ne_nil hne
  obtain ⟨hname, hdown⟩ := List.forall_mem_cons.1 h
  rw [components_of_segments hsegments (ne_empty_of_segments hsegments (.inl hname.empty)),
    ofFirst_of_isName hname, filterMap_of_names hdown, List.map_cons, List.singleton_append]

private theorem components_append (h : segments base = first :: rest) :
    components (base ++ "/" ++ path) =
      ofFirst first ++ (rest ++ segments path).filterMap Component.ofSegment := by
  have hsegments : segments (base ++ "/" ++ path) = first :: (rest ++ segments path) := by
    rw [segments_append, h, List.cons_append]
  have hne : rest ++ segments path ≠ [] := by simp [segments_ne_nil]
  rw [components_of_segments hsegments (ne_empty_of_segments hsegments (.inr hne))]

/-- How a path is joined to another one: as it is, behind the slash at the end, or behind a slash of
its own. -/
private theorem join_cases (base : String) (hpath : path.startsWith "/" = false) :
    (base = "" ∧ join base path = path) ∨
    (∃ front, base = front ++ "/" ∧ join base path = front ++ "/" ++ path) ∨
    (base ≠ "" ∧ join base path = base ++ "/" ++ path) := by
  rw [join, hpath]
  by_cases hbase : base = ""
  · exact .inl ⟨hbase, by simp [hbase]⟩
  · rw [if_neg (by simp [hbase])]
    split
    · rename_i hslash
      obtain ⟨front, rfl⟩ := exists_of_endsWith_slash hslash
      exact .inr (.inl ⟨front, rfl, rfl⟩)
    · exact .inr (.inr ⟨hbase, rfl⟩)

private theorem startsWith_of_names (hne : down ≠ []) (h : ∀ name ∈ down, IsName name) :
    ("/".intercalate down).startsWith "/" = false := by
  rw [← Bool.not_eq_true, startsWith_slash_iff_segments,
    segments_intercalate hne fun name hname => (h name hname).slash]
  rintro ⟨hhead, -⟩
  exact (h "" (List.mem_of_mem_head? hhead)).empty rfl

/-- A path leads down from another one by one way. -/
theorem LeadsDown.unique {other : List String} (h : LeadsDown base path down)
    (h' : LeadsDown base path other) : down = other := by
  have hnames := List.append_cancel_left (h.components.symm.trans h'.components)
  have hname : Function.Injective Component.name := fun _ _ => Component.name.inj
  exact hname.list_map hnames

/-- Names that are joined to a path lead down from it. -/
theorem leadsDown_join (base : String) (hne : down ≠ []) (h : ∀ name ∈ down, IsName name) :
    LeadsDown base (join base ("/".intercalate down)) down := by
  have hsegments := segments_intercalate hne fun name hname => (h name hname).slash
  refine ⟨h, ?_⟩
  rcases join_cases base (startsWith_of_names hne h) with
    ⟨rfl, hjoin⟩ | ⟨front, rfl, hjoin⟩ | ⟨hbase, hjoin⟩
  · rw [hjoin, components_of_names hne h]
    rfl
  · obtain ⟨first, rest, hfront⟩ := List.exists_cons_of_ne_nil (segments_ne_nil front)
    have hslash : components (front ++ "/") =
        ofFirst first ++ (rest ++ segments "").filterMap Component.ofSegment := by
      rw [← components_append hfront, String.append_empty]
    rw [hjoin, hslash, components_append hfront, hsegments, List.filterMap_append,
      List.filterMap_append, filterMap_of_names h, List.append_assoc, List.append_assoc]
    rfl
  · obtain ⟨first, rest, hsegs⟩ := List.exists_cons_of_ne_nil (segments_ne_nil base)
    rw [hjoin, components_append hsegs, components_of_segments hsegs hbase, hsegments,
      List.filterMap_append, filterMap_of_names h, List.append_assoc]

/-- What a path names are names. -/
theorem isName_of_mem_components (h : .name name ∈ components path) : IsName name := by
  have hmem {texts : List String} (htexts : ∀ text ∈ texts, text ∈ segments path)
      (hname : .name name ∈ texts.filterMap Component.ofSegment) : IsName name := by
    obtain ⟨text, htext, hvalue⟩ := List.mem_filterMap.1 hname
    rw [Component.ofSegment] at hvalue
    split_ifs at hvalue with hidle hup
    · exact absurd (Option.some.inj hvalue) (by simp)
    · obtain rfl := Component.name.inj (Option.some.inj hvalue)
      obtain ⟨hempty, hcurrent⟩ := not_or.1 hidle
      exact ⟨slash_not_mem_of_mem_segments (htexts text htext), hempty, hcurrent, hup⟩
  rw [components] at h
  split at h
  · rename_i rest hsegments
    refine hmem (fun text htext => hsegments ▸ List.mem_cons_of_mem _ htext)
      ((List.mem_append.1 h).resolve_left ?_)
    split <;> simp
  · rename_i rest hsegments
    refine hmem (fun text htext => hsegments ▸ List.mem_cons_of_mem _ htext)
      ((List.mem_cons.1 h).resolve_left (by simp))
  · exact hmem (fun text htext => htext) h

end Components

section Parent

private theorem filterMap_trimmed (rest : List String) :
    (rest.reverse.dropWhile fun s => s = "" ∨ s = ".").reverse.filterMap Component.ofSegment =
      rest.filterMap Component.ofSegment := by
  induction rest using List.reverseRecOn with
  | nil => rfl
  | append_singleton rest s ih =>
    rw [List.reverse_append, List.reverse_singleton, List.singleton_append, List.dropWhile_cons]
    split
    · rename_i hs
      have hnone : Component.ofSegment s = none := if_pos (by simpa using hs)
      rw [ih, List.filterMap_append, List.filterMap_cons_none hnone, List.filterMap_nil,
        List.append_nil]
    · rw [List.reverse_cons, List.reverse_reverse]

private theorem trimEnd_of_name (hname : IsName name) (first : String) (rest : List String) :
    trimEnd (first :: (rest ++ [name])) = first :: (rest ++ [name]) := by
  simp [trimEnd, hname.empty, hname.current]

private theorem mem_of_mem_trimmed {text : String}
    (h : text ∈ (rest.reverse.dropWhile fun s => s = "" ∨ s = ".").reverse) : text ∈ rest := by
  simpa using (List.dropWhile_sublist _).subset (List.mem_reverse.1 h)

private theorem parent_of_trimEnd (h : trimEnd (segments path) = first :: (rest ++ [name])) :
    parent path =
      if trimEnd (first :: rest) = [""] then some "/"
      else some ("/".intercalate (trimEnd (first :: rest))) := by
  have hfront : (first :: (rest ++ [name])).dropLast = first :: rest := by
    rw [← List.cons_append, List.dropLast_concat]
  rw [parent, h]
  split
  · rename_i heq
    exact absurd heq (by simp)
  · rename_i heq
    exact absurd heq (by simp)
  · rw [hfront]
    split
    · rename_i heq
      rw [if_pos heq]
    · rename_i hne
      rw [if_neg hne]

/-- The path above one that ends with a name leads to where the name is. -/
theorem exists_parent (h : segments path = texts ++ [name]) (hname : IsName name) :
    ∃ above, parent path = some above ∧ components path = components above ++ [.name name] := by
  cases texts with
  | nil =>
    refine ⟨"", ?_, ?_⟩
    · simp [parent, h, trimEnd, hname.empty]
    · rw [components_of_segments h (ne_empty_of_segments h (.inl hname.empty)),
        ofFirst_of_isName hname]
      rfl
  | cons first rest =>
    rw [List.cons_append] at h
    have hcomponents : components path =
        ofFirst first ++ rest.filterMap Component.ofSegment ++ [.name name] := by
      have hlast : [name].filterMap Component.ofSegment = [.name name] := by
        rw [List.filterMap_cons_some (ofSegment_of_isName hname), List.filterMap_nil]
      rw [components_of_segments h (ne_empty_of_segments h (.inr (by simp))),
        List.filterMap_append, hlast, List.append_assoc]
    have htrim : trimEnd (segments path) = first :: (rest ++ [name]) := by
      rw [h, trimEnd_of_name hname]
    have hparent := parent_of_trimEnd htrim
    rw [trimEnd] at hparent
    split_ifs at hparent with hroot
    · obtain ⟨rfl, hrest⟩ := List.cons.inj hroot
      refine ⟨"/", hparent, ?_⟩
      rw [hcomponents, ← filterMap_trimmed, hrest]
      rfl
    · have hmem (text) (htext : text ∈ first :: rest) : '/' ∉ text.toList := by
        have hsegment : text ∈ segments path := by
          rw [h, ← List.cons_append]
          exact List.mem_append_left _ htext
        exact slash_not_mem_of_mem_segments hsegment
      have hsegments := segments_intercalate (List.cons_ne_nil first _) fun text htext =>
        hmem text ((List.mem_cons.1 htext).elim (fun heq => heq ▸ List.mem_cons_self)
          fun htrimmed => List.mem_cons_of_mem first (mem_of_mem_trimmed htrimmed))
      have hne := ne_empty_of_segments hsegments (by
        by_contra hnone
        simp only [not_or, not_not] at hnone
        exact hroot (by rw [hnone.1, hnone.2]))
      refine ⟨_, hparent, ?_⟩
      rw [hcomponents, components_of_segments hsegments hne, filterMap_trimmed]

/-- What is joined to a path keeps its segments at the end. -/
private theorem exists_segments_join (base : String) (hpath : path.startsWith "/" = false) :
    ∃ texts, segments (join base path) = texts ++ segments path := by
  rcases join_cases base hpath with ⟨-, hjoin⟩ | ⟨front, -, hjoin⟩ | ⟨-, hjoin⟩
  · exact ⟨[], by rw [hjoin, List.nil_append]⟩
  · exact ⟨segments front, by rw [hjoin, segments_append]⟩
  · exact ⟨segments base, by rw [hjoin, segments_append]⟩

/-- The directory of what is joined to a path leads down from there too. -/
theorem exists_parent_join (base : String) (hne : down ≠ []) (h : ∀ name ∈ down, IsName name) :
    ∃ above, parent (join base ("/".intercalate down)) = some above ∧
      LeadsDown base above down.dropLast := by
  obtain ⟨texts, htexts⟩ := exists_segments_join base (startsWith_of_names hne h)
  have hdown := (leadsDown_join base hne h).components
  rw [segments_intercalate hne fun name hname => (h name hname).slash] at htexts
  obtain ⟨front, name, rfl⟩ : ∃ front name, down = front ++ [name] :=
    ⟨down.dropLast, down.getLast hne, (List.dropLast_concat_getLast hne).symm⟩
  obtain ⟨hfront, hname⟩ := List.forall_mem_append.1 h
  rw [← List.append_assoc] at htexts
  obtain ⟨above, hparent, habove⟩ := exists_parent htexts (List.forall_mem_singleton.1 hname)
  refine ⟨above, hparent, by rwa [List.dropLast_concat], ?_⟩
  rw [habove, List.map_append, ← List.append_assoc] at hdown
  rw [List.dropLast_concat]
  exact List.append_inj_left' hdown rfl

end Parent

end BucketTransfer.Files.Path
