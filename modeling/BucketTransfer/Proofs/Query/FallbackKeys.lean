import BucketTransfer.Proofs.Query.Addresses
import BucketTransfer.Proofs.Text.Pieces

/-!
# The keys of the fallback column

An operand that names no column is looked for under one key of the table's fallback column. The key
is the operand without a pair of quotes around it; what is quoted inside it keeps its quotes. So the
key is the one that the operand's segments make only if there are no other quotes than this pair.
-/
namespace BucketTransfer.Query

/-! ## Operands without their quotes -/

namespace Path
variable {operand : String} {segments : List String} {cs : List Char}

/-- An operand without any of its quotes. -/
def bare (operand : String) : String := String.ofList (operand.toList.filter (· ≠ '\''))

/-- No quote is left in the segments, and a dot stands in one of them or between two. -/
private theorem intercalate_segmentsFrom {quoted : Bool} {first : List Char}
    {rest : List (List Char)} (h : segmentsFrom quoted cs = some (first, rest)) :
    ['.'].intercalate (first :: rest) = cs.filter (· ≠ '\'') := by
  fun_induction segmentsFrom quoted cs generalizing first rest with
  | case1 => cases h
  | case2 => cases h; rfl
  | case3 quoted cs ih =>
    rw [List.filter_cons_of_neg (by simp)]
    exact ih h
  | case4 quoted c cs hquote hdot ih =>
    obtain ⟨⟨next, others⟩, hrest, heq⟩ := Option.map_eq_some_iff.1 h
    cases heq
    rw [List.filter_cons_of_pos (by simpa using hquote), ← ih hrest, hdot.1,
      List.intercalate_cons_cons]
    rfl
  | case5 quoted c cs hquote hdot ih =>
    obtain ⟨⟨next, others⟩, hrest, heq⟩ := Option.map_eq_some_iff.1 h
    cases heq
    rw [List.filter_cons_of_pos (by simpa using hquote), ← ih hrest]
    cases rest with
    | nil => simp
    | cons other rest => simp [List.intercalate_cons_cons]

/-- The segments of an operand, with dots between them, are the operand without its quotes. -/
theorem intercalate_split (h : split operand = .ok segments) (hne : segments ≠ []) :
    ".".intercalate segments = bare operand := by
  rw [split] at h
  split at h
  · cases h
  · rename_i first rest hsome
    dsimp only at h
    split at h
    · exact absurd (Except.ok.inj h).symm hne
    · rw [← Except.ok.inj h, bare, ← intercalate_segmentsFrom hsome, ← String.toList_inj,
        String.toList_intercalate, List.map_map, String.toList_ofList]
      simp

/-- A pair of quotes around an operand is taken off, and nothing else. -/
theorem unquote_cases (operand : String) :
    (∃ inner, operand = "'" ++ inner ++ "'" ∧ unquote operand = inner) ∨
      unquote operand = operand := by
  rw [unquote]
  split
  · rename_i cs hcs
    split
    · rename_i inner hinner
      refine .inl ⟨String.ofList inner.reverse, ?_, rfl⟩
      rw [← String.toList_inj, hcs, ← List.reverse_reverse cs, hinner]
      simp
    · exact .inr rfl
  · exact .inr rfl

theorem unquote_quoted (inner : String) : unquote ("'" ++ inner ++ "'") = inner := by
  have hchars : ("'" ++ inner ++ "'").toList = '\'' :: (inner.toList ++ ['\'']) := by simp
  rw [unquote, hchars]
  simp

theorem bare_of_not_mem (h : '\'' ∉ operand.toList) : bare operand = operand := by
  have hfilter : operand.toList.filter (· ≠ '\'') = operand.toList :=
    List.filter_eq_self.2 fun c hc => decide_eq_true (ne_of_mem_of_not_mem hc h)
  rw [bare, hfilter, String.ofList_toList]

theorem bare_quoted (inner : String) : bare ("'" ++ inner ++ "'") = bare inner := by
  simp [bare]

theorem not_mem_bare (operand : String) : '\'' ∉ (bare operand).toList := by
  simp [bare]

/-- An operand that has no quotes, or only a pair around it. -/
def IsWhole (operand : String) : Prop :=
  ∃ inner : String, '\'' ∉ inner.toList ∧ (operand = inner ∨ operand = "'" ++ inner ++ "'")

theorem unquote_eq_bare_iff : unquote operand = bare operand ↔ IsWhole operand := by
  constructor
  · intro h
    have hplain : '\'' ∉ (unquote operand).toList := h ▸ not_mem_bare operand
    refine ⟨unquote operand, hplain, ?_⟩
    rcases unquote_cases operand with ⟨inner, hquoted, hinner⟩ | hsame
    · rw [hinner]
      exact .inr hquoted
    · exact .inl hsame.symm
  · rintro ⟨inner, hinner, rfl | rfl⟩
    · rw [bare_of_not_mem hinner]
      refine (unquote_cases operand).resolve_left ?_
      rintro ⟨inner, rfl, -⟩
      simp at hinner
    · rw [unquote_quoted, bare_quoted, bare_of_not_mem hinner]

/-- What is left of an operand has quotes in it unless the operand is a whole. -/
theorem mem_unquote_iff : '\'' ∈ (unquote operand).toList ↔ ¬ IsWhole operand := by
  rw [← unquote_eq_bare_iff]
  constructor
  · intro hmem heq
    rw [heq] at hmem
    exact not_mem_bare operand hmem
  · intro hne
    by_contra hplain
    refine hne ?_
    rcases unquote_cases operand with ⟨inner, rfl, hinner⟩ | hsame
    · rw [hinner] at hplain ⊢
      rw [bare_quoted, bare_of_not_mem hplain]
    · rw [hsame] at hplain ⊢
      exact (bare_of_not_mem hplain).symm

theorem written_of_undotted (h : ∀ s ∈ segments, '.' ∉ s.toList) :
    written segments = ".".intercalate segments := by
  have hsame : segments.map quoteDotted = segments.map id :=
    List.map_congr_left fun s hs => if_neg (h s hs)
  rw [written, hsame, List.map_id]

/-- One segment, or segments without dots, are written as a whole, and no others are. -/
theorem isWhole_written (hne : segments ≠ []) (h : ∀ s ∈ segments, IsSegment s) :
    IsWhole (written segments) ↔
      segments.length = 1 ∨ ∀ s ∈ segments, '.' ∉ s.toList := by
  constructor
  · rintro ⟨inner, hinner, heq | heq⟩
    · -- No segment is in quotes, so none of them holds a dot.
      refine .inr fun s hs hdot => hinner ?_
      rw [← heq]
      refine Text.mem_intercalate_of_mem (List.mem_map_of_mem hs) ?_
      simp [quoteDotted, hdot]
    · have hsplit := split_written h
      rw [heq] at hsplit
      by_cases hempty : inner = ""
      · subst hempty
        exact absurd (Except.ok.inj hsplit).symm hne
      · rw [split_quoted ⟨hempty, hinner⟩] at hsplit
        exact .inl (congrArg List.length (Except.ok.inj hsplit).symm)
  · rintro (hone | hplain)
    · obtain ⟨s, rfl⟩ := List.length_eq_one_iff.1 hone
      refine ⟨s, (h s List.mem_cons_self).2, ?_⟩
      rw [written, List.map_singleton, String.intercalate_singleton, quoteDotted]
      split
      · exact .inr rfl
      · exact .inl rfl
    · refine ⟨written segments, ?_, .inl rfl⟩
      rw [written_of_undotted hplain, intercalate_split (split_written h) hne]
      exact not_mem_bare _

end Path

/-! ## Operands that name no column -/

namespace Schema
variable {s : Schema} {operand column : String} {segments : List String} {found : Operand}
  {e : Error}

/-- An operand that is looked for in the fallback column: no segments at its front are the property
of a column, and its first one is neither the array's property nor one that the table does not
hold. -/
structure FallsBack (s : Schema) (operand : String) (segments : List String) : Prop where
  split : Path.split operand = .ok segments
  ne_nil : segments ≠ []
  unnamed : ∀ n, ∀ c ∈ s.columns, c.property ≠ ".".intercalate (segments.take (n + 1))
  supported : ∀ head ∈ segments.head?, head ∉ s.unsupported
  apart : ∀ head ∈ segments.head?, ∀ array ∈ s.array, head ≠ array.property

/-- The key of an operand that falls back is what is left of it without a pair of quotes. -/
theorem FallsBack.resolve (h : s.FallsBack operand segments) (hcolumn : s.fallback = some column) :
    s.resolve operand = .ok (.column column [Path.unquote operand]) := by
  obtain ⟨head, rest, rfl⟩ := List.exists_cons_of_ne_nil h.ne_nil
  have hlongest : s.longest (head :: rest) (head :: rest).length = none :=
    longest_of_none (Nat.zero_le _) fun k hk => by
      obtain ⟨n, rfl⟩ := Nat.exists_eq_succ_of_ne_zero (Nat.ne_of_gt hk)
      exact column?_eq_none (h.unnamed n)
  have hsupported : s.unsupported.contains head = false := by
    simpa using h.supported head rfl
  rw [resolve_of_split h.split]
  simp only [resolvePath, hsupported, hlongest, hcolumn]
  cases harray : s.array with
  | none => rfl
  | some array => exact if_pos (h.apart head rfl array harray)

/-- The table without its fallback column. -/
def strict (s : Schema) : Schema := { s with fallback := none }

private theorem longest_strict (path : List String) (n : Nat) :
    s.strict.longest path n = s.longest path n := by
  induction n with
  | zero => rfl
  | succ n ih =>
    rw [longest, longest, ih]
    rfl

private theorem unnamed_of_longest {path : List String} {n : Nat} (h : s.longest path n = none)
    {k : Nat} (hk : k < n) : ∀ c ∈ s.columns, c.property ≠ ".".intercalate (path.take (k + 1)) := by
  induction n with
  | zero => exact absurd hk (Nat.not_lt_zero k)
  | succ n ih =>
    rw [longest] at h
    split at h
    · cases h
    · rename_i hnone
      rcases Nat.lt_succ_iff_lt_or_eq.1 hk with hlt | rfl
      · exact ih h hlt
      · intro c hc heq
        exact List.find?_eq_none.1 hnone c hc (beq_iff_eq.2 heq)

/-- The fallback column does not matter for what the array, an unsupported segment or another column
decides. -/
private theorem resolvePath_strict {head : String} {rest : List String}
    (h : s.longest (head :: rest) (head :: rest).length ≠ none ∨ head ∈ s.unsupported ∨
      ∃ array ∈ s.array, head = array.property) :
    s.strict.resolvePath operand head rest = s.resolvePath operand head rest := by
  have harray : s.strict.array = s.array := rfl
  have hunsupported : s.strict.unsupported = s.unsupported := rfl
  have htable : s.strict.table = s.table := rfl
  unfold resolvePath
  rw [harray, hunsupported, htable, longest_strict]
  rcases h with h | h | ⟨array, hsome, rfl⟩
  · obtain ⟨found, hfound⟩ := Option.ne_none_iff_exists'.1 h
    simp only [hfound]
  · have hcontains : s.unsupported.contains head = true := by simpa using h
    simp only [hcontains, if_true]
  · rw [Option.mem_def.1 hsome]
    simp

/-- What is found only because the table has a fallback column is looked for there. -/
theorem exists_fallsBack (hfound : s.resolve operand = .ok found)
    (hlost : s.strict.resolve operand = .error e) :
    ∃ segments, s.FallsBack operand segments := by
  obtain ⟨segments, hsplit, hfound⟩ := exists_of_bind hfound
  cases segments with
  | nil => cases hfound
  | cons head rest =>
    rw [resolve_of_split hsplit] at hlost
    have hapart : ¬(s.longest (head :: rest) (head :: rest).length ≠ none ∨
        head ∈ s.unsupported ∨ ∃ array ∈ s.array, head = array.property) := by
      intro h
      rw [resolvePath_strict h] at hlost
      cases hfound.symm.trans hlost
    simp only [not_or, not_not, not_exists, not_and] at hapart
    obtain ⟨hnone, hsupported, harray⟩ := hapart
    refine ⟨head :: rest, hsplit, List.cons_ne_nil _ _, fun n => ?_, ?_, ?_⟩
    · rcases Nat.lt_or_ge n (head :: rest).length with hn | hn
      · exact unnamed_of_longest hnone hn
      · rw [List.take_of_length_le (Nat.le_succ_of_le hn)]
        simpa using unnamed_of_longest hnone (Nat.lt_succ_self rest.length)
    · rintro _ ⟨⟩
      exact hsupported
    · rintro _ ⟨⟩
      exact harray

end Schema

namespace Store
variable {store : Store} {operand column : String} {found : Operand} {e : Error}

/-- An operand that is found only because of the fallback column is looked for there, under one key:
what is left of the operand when a pair of quotes around it is taken off. This is its segments with
dots between them, so the operand without any quotes, exactly if it has no other quotes than this
pair; else quotes are left in the key. Of the operands that are written from their segments the key
is right for one segment and for segments without dots, and wrong for all others. -/
theorem fallback_keys (hcolumn : store.schema.fallback = some column)
    (hfound : store.schema.resolve operand = .ok found)
    (hlost : store.schema.strict.resolve operand = .error e) :
    ∃ segments, Path.split operand = .ok segments ∧
      let key := Path.unquote operand
      found = .column column [key] ∧
      store.schema.expression found =
        ⟨store.schema.table ++ "." ++ column ++ " ->> ?", [.string key]⟩ ∧
      ".".intercalate segments = Path.bare operand ∧
      (key = ".".intercalate segments ↔ Path.IsWhole operand) ∧
      ('\'' ∈ key.toList ↔ ¬ Path.IsWhole operand) ∧
      (operand = Path.written segments → (∀ s ∈ segments, Path.IsSegment s) →
        (key = ".".intercalate segments ↔
          segments.length = 1 ∨ ∀ s ∈ segments, '.' ∉ s.toList)) := by
  obtain ⟨segments, h⟩ := Schema.exists_fallsBack hfound hlost
  refine ⟨segments, h.split, ?_⟩
  intro key
  have hbare := Path.intercalate_split h.split h.ne_nil
  have hkey : key = ".".intercalate segments ↔ Path.IsWhole operand := by
    rw [hbare]
    exact Path.unquote_eq_bare_iff
  obtain rfl := Except.ok.inj (hfound.symm.trans (h.resolve hcolumn))
  refine ⟨rfl, rfl, hbare, hkey, Path.mem_unquote_iff, ?_⟩
  rintro rfl hsegments
  exact hkey.trans (Path.isWhole_written h.ne_nil hsegments)

/-- The key is right for a name in quotes, and wrong if the name has a segment in front of it. -/
theorem fallback_keys_of_names :
    let whole := "'https://w3id.org/edc/v0.0.1/ns/name'"
    let part := "ns.'https://w3id.org/edc/v0.0.1/ns/name'"
    (∃ segments, Path.split whole = .ok segments ∧
      assets.schema.resolve whole = .ok (.column "properties" [".".intercalate segments])) ∧
    ∃ segments, Path.split part = .ok segments ∧
      assets.schema.resolve part = .ok (.column "properties" [part]) ∧
      part ≠ ".".intercalate segments := by
  intro whole part
  constructor
  · have hfound : assets.schema.resolve whole =
        .ok (.column "properties" [Path.unquote whole]) := by decide +kernel
    have hlost : assets.schema.strict.resolve whole =
        .error (.unknownOperand "edc_asset" whole) := by decide +kernel
    have hwhole : Path.IsWhole whole :=
      ⟨"https://w3id.org/edc/v0.0.1/ns/name", by decide, .inr rfl⟩
    obtain ⟨segments, hsplit, -, -, -, hkey, -⟩ := fallback_keys rfl hfound hlost
    rw [hkey.2 hwhole] at hfound
    exact ⟨segments, hsplit, hfound⟩
  · have hsame : Path.unquote part = part := by decide +kernel
    have hfound : assets.schema.resolve part = .ok (.column "properties" [part]) := by
      decide +kernel
    have hlost : assets.schema.strict.resolve part =
        .error (.unknownOperand "edc_asset" part) := by decide +kernel
    obtain ⟨segments, hsplit, -, -, -, hkey, hquotes, -⟩ := fallback_keys rfl hfound hlost
    rw [hsame] at hkey hquotes
    exact ⟨segments, hsplit, hfound, fun heq => hquotes.1 (by decide) (hkey.1 heq)⟩

/-- Of two segments in quotes each loses one of its quotes. -/
theorem not_fallback_keys_of_two_quotations :
    ¬∀ (store : Store) (operand column : String) (segments : List String) (found : Operand)
        (e : Error), store.schema.fallback = some column →
      store.schema.resolve operand = .ok found → store.schema.strict.resolve operand = .error e →
      Path.split operand = .ok segments → found = .column column [".".intercalate segments] := by
  intro h
  have hfound := h assets "'a.b'.'c.d'" "properties" ["a.b", "c.d"]
    (.column "properties" ["a.b'.'c.d"]) (.unknownOperand "edc_asset" "'a.b'.'c.d'")
    rfl (by decide +kernel) (by decide +kernel) (by decide +kernel)
  exact absurd hfound (by decide +kernel)

end Store

end BucketTransfer.Query
