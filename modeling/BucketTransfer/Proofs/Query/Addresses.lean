import BucketTransfer.Proofs.Query.Outline
import BucketTransfer.Text.Split

/-!
# The addresses of JSON fields

A path is written with its segments between dots, and with quotes around each segment that holds a
dot itself. So every field of a JSON column has a path, and this path stands for that field and for
no other one, whatever the names of other columns are.
-/
namespace BucketTransfer.Query

/-! ## Written paths -/

namespace Path

/-- What a segment can be: some text without a quote. -/
def IsSegment (segment : String) : Prop := segment ≠ "" ∧ '\'' ∉ segment.toList

instance (segment : String) : Decidable (IsSegment segment) :=
  inferInstanceAs (Decidable (_ ∧ _))

/-- A segment as a path has it, in quotes if it holds a dot. -/
def quoteDotted (segment : String) : String :=
  if '.' ∈ segment.toList then "'" ++ segment ++ "'" else segment

/-- The path with given segments. -/
def written (segments : List String) : String := ".".intercalate (segments.map quoteDotted)

variable {cs rest : List Char} {segment : String} {segments : List String}

/-- What the characters of a first segment add to the segments of the path behind them. -/
private def prepend (cs : List Char) (path : List Char × List (List Char)) :
    List Char × List (List Char) :=
  (cs ++ path.1, path.2)

/-- Characters without a quote belong to the first segment, dots too if a quote is open. -/
private theorem segmentsFrom_append {quoted : Bool} (hquote : '\'' ∉ cs)
    (hdot : quoted = false → '.' ∉ cs) (rest : List Char) :
    segmentsFrom quoted (cs ++ rest) = (segmentsFrom quoted rest).map (prepend cs) := by
  induction cs with
  | nil => exact Option.map_id.symm ▸ rfl
  | cons c cs ih =>
    obtain ⟨hc, hcs⟩ := List.ne_and_not_mem_of_not_mem_cons hquote
    have hplain : ¬(c = '.' ∧ quoted = false) := by
      rintro ⟨rfl, hopen⟩
      exact hdot hopen List.mem_cons_self
    rw [List.cons_append, segmentsFrom, if_neg hc.symm, if_neg hplain,
      ih hcs fun hopen => List.not_mem_of_not_mem_cons (hdot hopen), Option.map_map]
    rfl

/-- A quote opens or closes a quotation and is itself nothing. -/
private theorem segmentsFrom_quote (quoted : Bool) (rest : List Char) :
    segmentsFrom quoted ('\'' :: rest) = segmentsFrom (!quoted) rest := by
  rw [segmentsFrom, if_pos rfl]

private theorem segmentsFrom_quoted (h : '\'' ∉ segment.toList) (rest : List Char) :
    segmentsFrom false (("'" ++ segment ++ "'").toList ++ rest) =
      (segmentsFrom false rest).map (prepend segment.toList) := by
  have hchars : ("'" ++ segment ++ "'").toList ++ rest =
      '\'' :: (segment.toList ++ '\'' :: rest) := by simp
  calc segmentsFrom false (("'" ++ segment ++ "'").toList ++ rest)
      = segmentsFrom true (segment.toList ++ '\'' :: rest) := by
        rw [hchars]
        exact segmentsFrom_quote false _
    _ = (segmentsFrom true ('\'' :: rest)).map (prepend segment.toList) :=
        segmentsFrom_append h (fun hopen => absurd hopen (by decide)) _
    _ = (segmentsFrom false rest).map (prepend segment.toList) :=
        congrArg _ (segmentsFrom_quote true rest)

private theorem segmentsFrom_quoteDotted (h : IsSegment segment) (rest : List Char) :
    segmentsFrom false ((quoteDotted segment).toList ++ rest) =
      (segmentsFrom false rest).map (prepend segment.toList) := by
  rw [quoteDotted]
  split
  case isTrue hdot => exact segmentsFrom_quoted h.2 rest
  case isFalse hdot => exact segmentsFrom_append h.2 (fun _ => hdot) rest

/-- What stands between two quotes is one segment. -/
theorem split_quoted (h : IsSegment segment) : split ("'" ++ segment ++ "'") = .ok [segment] := by
  have hsegments := segmentsFrom_quoted h.2 []
  rw [List.append_nil] at hsegments
  have hsome : segment.toList.isEmpty = false :=
    Bool.eq_false_iff.2 fun hempty => h.1 (String.toList_eq_nil_iff.1 (List.isEmpty_iff.1 hempty))
  rw [split, hsegments]
  simp [segmentsFrom, prepend, hsome]

private theorem segmentsFrom_written (h : ∀ s ∈ segment :: segments, IsSegment s) :
    segmentsFrom false (written (segment :: segments)).toList =
      some (segment.toList, segments.map String.toList) := by
  induction segments generalizing segment with
  | nil =>
    have hchars : (written [segment]).toList = (quoteDotted segment).toList ++ [] := by
      simp [written]
    rw [hchars, segmentsFrom_quoteDotted (h segment List.mem_cons_self)]
    simp [segmentsFrom, prepend]
  | cons next segments ih =>
    obtain ⟨hsegment, hsegments⟩ := List.forall_mem_cons.1 h
    have hchars : (written (segment :: next :: segments)).toList =
        (quoteDotted segment).toList ++ '.' :: (written (next :: segments)).toList := by
      simp only [written, List.map_cons, String.intercalate_cons_cons, String.toList_append,
        List.append_assoc]
      rfl
    rw [hchars, segmentsFrom_quoteDotted hsegment, segmentsFrom, if_neg (by decide),
      if_pos ⟨rfl, rfl⟩, ih hsegments]
    simp [prepend]

/-- A written path is split into just its segments. -/
theorem split_written (h : ∀ s ∈ segments, IsSegment s) :
    split (written segments) = .ok segments := by
  cases segments with
  | nil => rfl
  | cons segment segments =>
    have hsome : (segment.toList :: segments.map String.toList).any List.isEmpty = false := by
      rw [← List.map_cons, List.any_eq_false]
      intro cs hcs hempty
      obtain ⟨s, hs, rfl⟩ := List.mem_map.1 hcs
      exact (h s hs).1 (String.toList_eq_nil_iff.1 (List.isEmpty_iff.1 hempty))
    rw [split, segmentsFrom_written h]
    dsimp only
    rw [hsome, if_neg Bool.false_ne_true, ← List.map_cons, List.map_map]
    simp

end Path

/-! ## Paths to fields -/

/-- The arrows down a path: the last one asks for text. -/
theorem arrows_succ (n : Nat) :
    arrows (n + 1) = String.join (List.replicate n " -> ?") ++ " ->> ?" := by
  induction n with
  | zero => rfl
  | succ n ih => rw [arrows, ih, List.replicate_succ, String.join_cons, String.append_assoc]

/-- The segments of the property that names a column. -/
def Column.segments (c : Column) : List String :=
  (Text.split '.' c.property.toList).map String.ofList

namespace Schema
variable {s : Schema} {c : Column} {path fields : List String}

/-- What keeps the fields of a JSON column apart from everything else that a path can name: it is
the column of its property, no other property goes on where this one ends, and its first segment is
neither the array's property nor one that the table does not hold. -/
structure Exposes (s : Schema) (c : Column) : Prop where
  json : c.kind = .json
  found : s.column? c.property = some c
  named : c.segments ≠ []
  property : ".".intercalate c.segments = c.property
  segments : ∀ segment ∈ c.segments, Path.IsSegment segment
  longest : ∀ d ∈ s.columns, ¬(c.property ++ ".").toList <+: d.property.toList
  supported : ∀ head ∈ c.segments.head?, head ∉ s.unsupported
  apart : ∀ head ∈ c.segments.head?, ∀ array ∈ s.array, head ≠ array.property

/-- A start of a path that names no column is passed over for a shorter one. -/
theorem longest_of_none {m n : Nat} (hle : m ≤ n)
    (h : ∀ k, m < k → s.column? (".".intercalate (path.take k)) = none) :
    s.longest path n = s.longest path m := by
  induction hle with
  | refl => rfl
  | @step n hle ih => rw [Schema.longest, h (n + 1) (Nat.lt_succ_of_le hle), ih]

theorem column?_eq_none {property : String} (h : ∀ d ∈ s.columns, d.property ≠ property) :
    s.column? property = none :=
  List.find?_eq_none.2 fun d hd heq => h d hd (beq_iff_eq.1 heq)

theorem resolve_of_split {text head : String} {rest : List String}
    (h : Path.split text = .ok (head :: rest)) : s.resolve text = s.resolvePath text head rest := by
  rw [resolve, h]
  rfl

namespace Exposes

/-- A start of a field's path that goes beyond the column's property names no column. -/
private theorem column?_take (h : s.Exposes c) (hfields : fields ≠ []) {k : Nat}
    (hk : c.segments.length < k) :
    s.column? (".".intercalate ((c.segments ++ fields).take k)) = none := by
  refine column?_eq_none fun d hd heq => h.longest d hd ?_
  have htake : fields.take (k - c.segments.length) ≠ [] := by
    rw [Ne, List.take_eq_nil_iff, not_or]
    exact ⟨Nat.sub_ne_zero_of_lt hk, hfields⟩
  rw [heq, List.take_append, List.take_of_length_le (Nat.le_of_lt hk),
    String.intercalate_append_of_ne_nil h.named htake, h.property,
    String.toList_append (s := c.property ++ ".")]
  exact List.prefix_append _ _

theorem longest_eq (h : s.Exposes c) (hfields : fields ≠ []) :
    s.longest (c.segments ++ fields) (c.segments ++ fields).length = some (c, fields) := by
  obtain ⟨n, hn⟩ := Nat.exists_eq_succ_of_ne_zero fun hzero =>
    h.named (List.length_eq_zero_iff.1 hzero)
  have hfound : s.column? (".".intercalate ((c.segments ++ fields).take (n + 1))) = some c := by
    rw [← Nat.succ_eq_add_one, ← hn, List.take_left, h.property, h.found]
  have hle : c.segments.length ≤ (c.segments ++ fields).length := by simp
  rw [longest_of_none hle fun k => h.column?_take hfields, hn, Schema.longest, hfound,
    ← Nat.succ_eq_add_one, ← hn, List.drop_left]

/-- The path of a field stands for the field. -/
theorem resolve_written (h : s.Exposes c) (hfields : fields ≠ [])
    (hsegments : ∀ f ∈ fields, Path.IsSegment f) :
    s.resolve (Path.written (c.segments ++ fields)) = .ok (.column c.name fields) := by
  have hall : ∀ segment ∈ c.segments ++ fields, Path.IsSegment segment :=
    List.forall_mem_append.2 ⟨h.segments, hsegments⟩
  have hsplit := Path.split_written hall
  have hlongest := h.longest_eq hfields
  obtain ⟨head, rest, hhead⟩ := List.exists_cons_of_ne_nil h.named
  have hfirst : head ∈ c.segments.head? := by rw [hhead]; rfl
  have hsupported : s.unsupported.contains head = false := by
    simpa using h.supported head hfirst
  obtain ⟨field, others, rfl⟩ := List.exists_cons_of_ne_nil hfields
  generalize Path.written (c.segments ++ field :: others) = text at hsplit ⊢
  rw [hhead, List.cons_append] at hsplit hlongest
  rw [resolve_of_split hsplit]
  simp only [resolvePath, hsupported, hlongest, h.json]
  cases harray : s.array with
  | none => rfl
  | some array => exact if_pos (h.apart head hfirst array harray)

end Exposes

end Schema

/-! ## Every field of every store -/

/-- A field below a column of a store: the column holds JSON, but not the array that is expanded,
and the path to the field has one segment or more. -/
structure Store.IsField (store : Store) (c : Column) (fields : List String) : Prop where
  column : c ∈ store.schema.columns
  json : c.kind = .json
  whole : ∀ array ∈ store.schema.array, array.column ≠ c.name
  ne_nil : fields ≠ []
  segments : ∀ f ∈ fields, Path.IsSegment f

namespace Store
variable {store : Store} {c d : Column} {fields : List String}

theorem IsField.exposes (h : store.IsField c fields) : store.schema.Exposes c := by
  have hcolumns : ∀ c ∈ store.schema.columns, store.schema.column? c.property = some c ∧
      c.segments ≠ [] ∧ ".".intercalate c.segments = c.property ∧
      ∀ segment ∈ c.segments, Path.IsSegment segment := by
    cases store
    all_goals decide +kernel
  have hfields : ∀ c ∈ store.schema.columns, c.kind = .json →
      (∀ array ∈ store.schema.array, array.column ≠ c.name) →
      (∀ d ∈ store.schema.columns, ¬(c.property ++ ".").toList <+: d.property.toList) ∧
      (∀ head ∈ c.segments.head?, head ∉ store.schema.unsupported) ∧
      ∀ head ∈ c.segments.head?, ∀ array ∈ store.schema.array, head ≠ array.property := by
    cases store
    all_goals decide +kernel
  obtain ⟨hfound, hnamed, hproperty, hsegments⟩ := hcolumns c h.column
  obtain ⟨hlongest, hsupported, hapart⟩ := hfields c h.column h.json h.whole
  exact ⟨h.json, hfound, hnamed, hproperty, hsegments, hlongest, hsupported, hapart⟩

theorem eq_of_name (hc : c ∈ store.schema.columns) (hd : d ∈ store.schema.columns)
    (h : c.name = d.name) : c = d := by
  have hnames : ∀ c ∈ store.schema.columns, ∀ d ∈ store.schema.columns,
      c.name = d.name → c = d := by
    cases store
    all_goals decide +kernel
  exact hnames c hc d hd h

theorem IsField.resolve_written (h : store.IsField c fields) :
    store.schema.resolve (Path.written (c.segments ++ fields)) = .ok (.column c.name fields) :=
  h.exposes.resolve_written h.ne_nil h.segments

/-- Segments are got back from the path that they are written in. The path of a field stands for
this field: for its column, with an arrow for each segment of which the last one asks for text, and
with the segments bound in order; and no other field's path stands for the same. -/
theorem fields_addressed :
    (∀ segments : List String, (∀ s ∈ segments, Path.IsSegment s) →
      Path.split (Path.written segments) = .ok segments) ∧
    ∀ (store : Store) (c : Column) (fields : List String), store.IsField c fields →
      let s := store.schema
      s.resolve (Path.written (c.segments ++ fields)) = .ok (.column c.name fields) ∧
        s.expression (.column c.name fields) =
          ⟨s.table ++ "." ++ c.name ++
              (String.join (List.replicate (fields.length - 1) " -> ?") ++ " ->> ?"),
            fields.map .string⟩ ∧
        ∀ d others, store.IsField d others →
          s.resolve (Path.written (d.segments ++ others)) = .ok (.column c.name fields) →
          d = c ∧ others = fields := by
  refine ⟨fun _ => Path.split_written, fun store c fields h => ⟨h.resolve_written, ?_, ?_⟩⟩
  · obtain ⟨n, hn⟩ := Nat.exists_eq_succ_of_ne_zero fun hzero =>
      h.ne_nil (List.length_eq_zero_iff.1 hzero)
    rw [Schema.expression, jsonPath, Schema.qualified, hn, arrows_succ]
    rfl
  · intro d others hd hresolved
    obtain ⟨hname, hothers⟩ :=
      Operand.column.inj (Except.ok.inj (hd.resolve_written.symm.trans hresolved))
    exact ⟨eq_of_name hd.column h.column hname, hothers⟩

/-- Names that other columns of the table have are no more than names in the path of a field. -/
theorem fields_addressed_of_other_names :
    let c : Column := ⟨.json, "policy.extensibleProperties", "extensible_properties"⟩
    let fields := ["policy", "a.policy.target", "id"]
    policyDefinitions.IsField c fields ∧
      policyDefinitions.schema.resolve "policy.extensibleProperties.policy.'a.policy.target'.id" =
        .ok (.column c.name fields) := by
  intro c fields
  have hfield : policyDefinitions.IsField c fields :=
    ⟨by decide, rfl, by decide, by decide, by decide⟩
  have hpath : Path.written (c.segments ++ fields) =
      "policy.extensibleProperties.policy.'a.policy.target'.id" := by decide +kernel
  rw [← hpath]
  exact ⟨hfield, (fields_addressed.2 policyDefinitions c fields hfield).1⟩

end Store

end BucketTransfer.Query
