import BucketTransfer.Proofs.Query.Gathering

/-!
# What the SQL of a query shows

The SQL text of a query depends on its outline only: on the columns that its operands stand for, the
lengths of the paths below them, the operators and the kinds of the right operands. Everything else
of a query is bound.
-/
namespace BucketTransfer.Query

/-! ## Outlines -/

/-- What the SQL shows of an operand: a column with the length of the path below it, or the name
for the elements of an array. -/
inductive Place where
  | column (name : String) (depth : Nat)
  | element (name : String)
  deriving DecidableEq, Repr

def Operand.place : Operand → Place
  | .column name path => .column name path.length
  | .element array _ => .element array.element

/-- What the SQL shows of a right operand. -/
inductive Kind where
  | null
  | list (length : Nat)
  | single
  deriving DecidableEq, Repr

def Kind.ofJson : Json → Kind
  | .null => .null
  | .array values => .list values.length
  | _ => .single

/-- What the SQL shows of a criterion. An operand that stands for nothing has no place. -/
structure Shape where
  left : Option Place
  operator : Operator
  right : Kind
  deriving DecidableEq, Repr

/-- What the SQL shows of a query. The direction counts if there is something to sort by. -/
structure Outline where
  filter : List Shape
  order : Option (Option Place × SortOrder)
  deriving DecidableEq, Repr

namespace Schema

def place? (s : Schema) (operand : String) : Option Place :=
  (s.resolve operand).toOption.map Operand.place

def shape (s : Schema) (c : Criterion) : Shape :=
  ⟨s.place? c.left, c.operator, Kind.ofJson c.right⟩

def outline (s : Schema) (q : Spec) : Outline :=
  ⟨q.filter.map s.shape, q.sortField.map fun field => (s.place? field, q.sortOrder)⟩

end Schema

/-! ## Texts from outlines -/

def Place.text (s : Schema) : Place → String
  | .column name depth => s.qualified name ++ arrows depth
  | .element name => name ++ " ->> ?"

def Operator.text (op : Operator) : Kind → String
  | .null => if op = .eq then " IS NULL" else " IS NOT NULL"
  | .list length => " IN (" ++ ", ".intercalate (List.replicate length "?") ++ ")"
  | .single => " " ++ op.keyword ++ " ?"

/-- What is bound of a right operand: of a list everything in it, and of null nothing. -/
def boundOf : Json → List Json
  | .array values => values
  | .null => []
  | value => [value]

theorem Schema.sql_expression (s : Schema) (operand : Operand) :
    (s.expression operand).sql = operand.place.text s := by
  cases operand
  all_goals rfl

/-- The text of a comparison tells of the right operand no more than its kind, and the values are
what is bound of it. -/
theorem comparison_eq {expression : String} {op : Operator} {value : Json} {compared : Statement}
    (h : comparison expression op value = .ok compared) :
    compared = ⟨expression ++ op.text (Kind.ofJson value), boundOf value⟩ := by
  unfold comparison at h
  split at h
  case h_1 values =>
    dsimp only at h
    split at h
    · cases h
    · cases h
      simp [Kind.ofJson, Operator.text, boundOf, String.append_assoc]
  case h_5 => cases h; rfl
  case h_6 => cases h; rfl
  case h_8 harray hobject hnull _ _ _ _ =>
    cases h
    cases value with
    | null => exact absurd rfl hnull
    | array values => exact absurd rfl (harray values)
    | bool | number | string | object =>
      simp [Kind.ofJson, Operator.text, boundOf, String.append_assoc]
  all_goals cases h

/-! ## One text for one outline -/

/-- What the statement takes over of a condition. -/
def Condition.shown (c : Condition) : Option ArrayColumn × String := (c.array, c.sql)

namespace Schema
variable {s : Schema}

/-- The array that a place is in. -/
def arrayOf (s : Schema) : Place → Option ArrayColumn
  | .column .. => none
  | .element _ => s.array

/-- What the statement takes over of a criterion with a shape. -/
def shown (s : Schema) (shape : Shape) : Option (Option ArrayColumn × String) :=
  shape.left.map fun place => (s.arrayOf place, place.text s ++ shape.operator.text shape.right)

theorem shown_of_condition {c : Criterion} {condition : Condition}
    (h : s.condition c = .ok condition) : s.shown (s.shape c) = some condition.shown := by
  obtain ⟨operand, compared, hoperand, hcompared, rfl⟩ := exists_of_condition h
  rw [comparison_eq hcompared, sql_expression, shown, shape, place?, hoperand]
  cases operand with
  | column name path => rfl
  | element array field =>
    have harray : s.array = some array := has_of_resolve hoperand
    simp [Except.toOption, Operand.place, arrayOf, harray, Condition.shown, Operand.array]

/-- The text of a key to sort by. -/
def keyText (s : Schema) (key : Option Place × SortOrder) : Option String :=
  key.1.map fun place => place.text s ++ (" " ++ key.2.keyword)

theorem sql_sortKey {field : String} {order : SortOrder} {key : Statement}
    (h : s.sortKey field order = .ok key) : s.keyText (s.place? field, order) = some key.sql := by
  obtain ⟨operand, hoperand, h⟩ := exists_of_bind h
  cases operand with
  | element array field => cases h
  | column name path =>
    cases h
    rw [keyText, place?, hoperand, sql_expression]
    simp [Except.toOption, Operand.place, String.append_assoc]

/-- The conditions in the order of the statement, those on elements last. -/
def conditionTexts (shown : List (Option ArrayColumn × String)) : List String :=
  (shown.filter (·.1.isNone) ++ shown.filter (·.1.isSome)).map (·.2)

/-- The whole statement from the texts of its conditions and of its order. -/
def statementText (s : Schema) (shown : List (Option ArrayColumn × String))
    (order : Option String) : String :=
  "SELECT " ++ s.table ++ ".* FROM " ++ s.table ++
    String.join (((shown.filterMap (·.1)).head?.toList.map s.expansion).map (", " ++ ·)) ++
    (if (conditionTexts shown).isEmpty then "" else
      " WHERE " ++ " AND ".intercalate (conditionTexts shown)) ++
    order.elim "" (" ORDER BY " ++ ·) ++ " LIMIT ? OFFSET ?"

theorem sql_selection (conditions : List Condition) (order : Option Statement)
    (limit offset : Nat) :
    ((s.selection (conditions.filter (·.array.isNone)) (conditions.filter (·.array.isSome))
      order).build limit offset).sql =
        s.statementText (conditions.map Condition.shown) (order.map (·.sql)) := by
  have htexts : conditionTexts (conditions.map Condition.shown) =
      ((conditions.filter (·.array.isNone) ++ conditions.filter (·.array.isSome)).map
        (·.toStatement)).map (·.sql) := by
    rw [conditionTexts, List.filter_map, List.filter_map, ← List.map_append, List.map_map,
      List.map_map]
    rfl
  have hexpansions : s.expansions (conditions.filter (·.array.isSome)) =
      ((conditions.map Condition.shown).filterMap (·.1)).head?.toList.map s.expansion := by
    rw [expansions_filter, expansions, List.filterMap_map]
    rfl
  rw [statementText, htexts, ← hexpansions]
  cases order
  all_goals rfl

/-- The SQL for an outline. -/
def written (s : Schema) (o : Outline) : String :=
  s.statementText (o.filter.filterMap s.shown) (o.order.bind s.keyText)

theorem sql_translate {q : Spec} {statement : Statement} (h : s.translate q = .ok statement) :
    statement.sql = s.written (s.outline q) := by
  rw [translate_eq] at h
  obtain ⟨conditions, hconditions, h⟩ := exists_of_bind h
  obtain ⟨order, horder, h⟩ := exists_of_bind h
  cases h
  have hfilter := map_of_mapM (fun _ _ => shown_of_condition) hconditions
  have hkey : order.map (·.sql) = (s.outline q).order.bind s.keyText := by
    rw [outline]
    rcases option_mapM_eq_ok_iff.1 horder with ⟨hfield, rfl⟩ | ⟨field, key, hfield, hkey, rfl⟩
    · rw [hfield]
      rfl
    · rw [hfield]
      exact (sql_sortKey hkey).symm
  rw [sql_selection, hfilter, hkey, written, outline, List.filterMap_map]
  rfl

end Schema

/-! ## The words of SQL -/

/-- The words that are in the SQL of every store. -/
def keywords : List String :=
  ["SELECT ", ".* FROM ", ", ", "json_array_elements(", ".", ") AS ", " WHERE ", " AND ",
    " ORDER BY ", " LIMIT ? OFFSET ?", " -> ?", " ->> ?", " IS NULL", " IS NOT NULL", " IN (", ")",
    "?", " ", " ?"] ++ Operator.all.map Operator.keyword ++
    [SortOrder.keyword .ascending, SortOrder.keyword .descending]

namespace Schema
variable {s : Schema} {a b : String}

/-- The names that a schema gives. -/
def names (s : Schema) : List String :=
  s.table :: s.columns.map (·.name) ++ s.fallback.toList ++
    s.array.toList.flatMap fun array => [array.column, array.element]

/-- Texts that are put together from keywords and the schema's names. -/
def Spells (s : Schema) (text : String) : Prop :=
  ∃ words, text = String.join words ∧ ∀ w ∈ words, w ∈ keywords ∨ w ∈ s.names

theorem Spells.append (ha : s.Spells a) (hb : s.Spells b) : s.Spells (a ++ b) := by
  obtain ⟨words, rfl, hwords⟩ := ha
  obtain ⟨words', rfl, hwords'⟩ := hb
  refine ⟨words ++ words', String.join_append.symm, fun w hw => ?_⟩
  exact (List.mem_append.1 hw).elim (hwords w) (hwords' w)

theorem spells_empty : s.Spells "" := ⟨[], rfl, by simp⟩

theorem spells_keyword (h : a ∈ keywords) : s.Spells a :=
  ⟨[a], by simp, by simpa using .inl h⟩

theorem spells_name (h : a ∈ s.names) : s.Spells a := ⟨[a], by simp, by simpa using .inr h⟩

theorem spells_table : s.Spells s.table := spells_name (by simp [names])

theorem spells_join {texts : List String} (h : ∀ t ∈ texts, s.Spells t) :
    s.Spells (String.join texts) := by
  induction texts with
  | nil => exact spells_empty
  | cons text texts ih =>
    rw [String.join_cons]
    exact (h text List.mem_cons_self).append (ih fun t ht => h t (List.mem_cons_of_mem _ ht))

theorem spells_intercalate (ha : s.Spells a) {texts : List String} (h : ∀ t ∈ texts, s.Spells t) :
    s.Spells (a.intercalate texts) := by
  induction texts with
  | nil => exact spells_empty
  | cons text texts ih =>
    have htext := h text List.mem_cons_self
    replace ih := ih fun t ht => h t (List.mem_cons_of_mem _ ht)
    cases texts with
    | nil => simpa using htext
    | cons next texts =>
      rw [String.intercalate_cons_cons]
      exact (htext.append ha).append ih

theorem spells_qualified (h : a ∈ s.names) : s.Spells (s.qualified a) :=
  (spells_table.append (spells_keyword (by simp [keywords]))).append (spells_name h)

theorem spells_arrows (n : Nat) : s.Spells (arrows n) := by
  fun_induction arrows n with
  | case1 => exact spells_empty
  | case2 => exact spells_keyword (by simp [keywords])
  | case3 n ih => exact (spells_keyword (by simp [keywords])).append ih

theorem spells_comparison (op : Operator) (kind : Kind) : s.Spells (op.text kind) := by
  cases kind with
  | null =>
    rw [Operator.text]
    split
    all_goals exact spells_keyword (by decide)
  | list n =>
    have hplaces : s.Spells (", ".intercalate (List.replicate n "?")) := by
      refine spells_intercalate (spells_keyword (by decide)) fun t ht => ?_
      obtain rfl := List.eq_of_mem_replicate ht
      exact spells_keyword (by decide)
    exact ((spells_keyword (by decide)).append hplaces).append (spells_keyword (by decide))
  | single =>
    have hoperator : s.Spells op.keyword := spells_keyword (by cases op <;> decide)
    exact ((spells_keyword (by decide)).append hoperator).append (spells_keyword (by decide))

theorem Has.mem_names {path : List String} (h : s.Has (.column a path)) : a ∈ s.names := by
  rcases h with h | h
  · simp only [names, List.mem_append]
    exact .inl (.inl (List.mem_cons_of_mem _ h))
  · simp [names, h]

theorem Has.spells {operand : Operand} (h : s.Has operand) : s.Spells (operand.place.text s) := by
  cases operand with
  | column name path => exact (spells_qualified h.mem_names).append (spells_arrows _)
  | element array field =>
    have harray : s.array = some array := h
    exact (spells_name (by simp [names, harray])).append (spells_keyword (by decide))

theorem spells_expansion {array : ArrayColumn} (h : s.array = some array) :
    s.Spells (s.expansion array) := by
  have hcolumn : array.column ∈ s.names := by simp [names, h]
  have helement : array.element ∈ s.names := by simp [names, h]
  exact (((spells_keyword (by decide)).append (spells_qualified hcolumn)).append
    (spells_keyword (by decide))).append (spells_name helement)

theorem spells_of_place {operand : String} {place : Place} (h : s.place? operand = some place) :
    s.Spells (place.text s) := by
  rw [place?] at h
  cases hresolved : s.resolve operand with
  | error e => rw [hresolved] at h; cases h
  | ok found =>
    rw [hresolved] at h
    cases h
    exact (has_of_resolve hresolved).spells

private theorem spells_conditions {texts : List String} (h : ∀ t ∈ texts, s.Spells t) :
    s.Spells (if texts.isEmpty then "" else " WHERE " ++ " AND ".intercalate texts) := by
  split
  · exact spells_empty
  · exact (spells_keyword (by decide)).append (spells_intercalate (spells_keyword (by decide)) h)

private theorem spells_order {order : Option String} (h : ∀ key ∈ order, s.Spells key) :
    s.Spells (order.elim "" (" ORDER BY " ++ ·)) := by
  cases order with
  | none => exact spells_empty
  | some key => exact (spells_keyword (by decide)).append (h key rfl)

/-- A statement is spelled if its conditions and its order are. -/
theorem spells_statementText {shown : List (Option ArrayColumn × String)} {order : Option String}
    (h : ∀ c ∈ shown, (∀ array ∈ c.1, s.array = some array) ∧ s.Spells c.2)
    (horder : ∀ key ∈ order, s.Spells key) : s.Spells (s.statementText shown order) := by
  have hselect : s.Spells ("SELECT " ++ s.table ++ ".* FROM " ++ s.table) :=
    (((spells_keyword (by decide)).append spells_table).append (spells_keyword (by decide))).append
      spells_table
  have hexpansions : s.Spells (String.join
      (((shown.filterMap (·.1)).head?.toList.map s.expansion).map (", " ++ ·))) := by
    refine spells_join fun t ht => ?_
    obtain ⟨_, he, rfl⟩ := List.mem_map.1 ht
    obtain ⟨array, harray, rfl⟩ := List.mem_map.1 he
    obtain ⟨c, hc, hsome⟩ := List.mem_filterMap.1
      (List.mem_of_mem_head? (Option.mem_toList.1 harray))
    exact (spells_keyword (by decide)).append (spells_expansion ((h c hc).1 array hsome))
  have hconditions : ∀ t ∈ conditionTexts shown, s.Spells t := by
    intro t ht
    obtain ⟨c, hc, rfl⟩ := List.mem_map.1 ht
    refine (h c ?_).2
    exact (List.mem_append.1 hc).elim (fun hc => (List.mem_filter.1 hc).1)
      fun hc => (List.mem_filter.1 hc).1
  exact (((hselect.append hexpansions).append (spells_conditions hconditions)).append
    (spells_order horder)).append (spells_keyword (by decide))

theorem arrayOf_eq {place : Place} {array : ArrayColumn} (h : s.arrayOf place = some array) :
    s.array = some array := by
  cases place with
  | column name depth => cases h
  | element name => exact h

theorem spells_written (s : Schema) (q : Spec) : s.Spells (s.written (s.outline q)) := by
  refine spells_statementText (fun c hc => ?_) fun key hkey => ?_
  · obtain ⟨shape, hshape, hshown⟩ := List.mem_filterMap.1 hc
    obtain ⟨criterion, -, rfl⟩ := List.mem_map.1 hshape
    obtain ⟨place, hplace, rfl⟩ := Option.map_eq_some_iff.1 hshown
    exact ⟨fun array harray => arrayOf_eq harray,
      (spells_of_place hplace).append (spells_comparison _ _)⟩
  · obtain ⟨pair, hpair, hkey⟩ := Option.bind_eq_some_iff.1 hkey
    obtain ⟨field, -, rfl⟩ := Option.map_eq_some_iff.1 hpair
    obtain ⟨place, hplace, rfl⟩ := Option.map_eq_some_iff.1 hkey
    have hdirection : q.sortOrder.keyword ∈ keywords := by
      cases q.sortOrder
      all_goals decide
    exact (spells_of_place hplace).append
      ((spells_keyword (by decide)).append (spells_keyword hdirection))

end Schema

/-- What a query asks for is bound: its SQL is made of keywords and of the names of the store's
table, and queries with one outline have one SQL text, whatever their operands, values, limits and
offsets are. -/
theorem Store.sql_of_outline {store : Store} {q : Spec} {statement : Statement}
    (h : store.statement q = .ok statement) :
    store.schema.Spells statement.sql ∧
      ∀ (q' : Spec) (statement' : Statement), store.statement q' = .ok statement' →
        store.schema.outline q' = store.schema.outline q → statement'.sql = statement.sql := by
  have hwritten : ∀ {q : Spec} {statement : Statement}, store.statement q = .ok statement →
      statement.sql = store.schema.written (store.schema.outline q) :=
    Schema.sql_translate
  refine ⟨hwritten h ▸ store.schema.spells_written q, fun q' statement' h' hsame => ?_⟩
  rw [hwritten h', hwritten h, hsame]

/-- A search for the definitions that select an asset. -/
def selecting (asset : String) (owners : List String) (limit : Nat) : Spec where
  filter :=
    [⟨"assetsSelector.operandRight", .eq, .string asset⟩, ⟨"accessPolicyId", .ne, .null⟩,
      ⟨"privateProperties.'" ++ asset ++ "'.owner", .oneOf, .array (owners.map .string)⟩]
  sortField := some "createdAt"
  sortOrder := .descending
  limit := limit

theorem exists_of_accepted {x : Except Error Statement} (h : x.toOption.isSome = true) :
    ∃ statement, x = .ok statement := by
  cases x with
  | error e => cases h
  | ok statement => exact ⟨statement, rfl⟩

theorem Store.sql_of_outline_of_selecting :
    ∃ statement statement',
      contractDefinitions.statement (selecting "a" ["b", "c"] 1) = .ok statement ∧
      contractDefinitions.statement (selecting "1; DROP TABLE edc_asset--" ["(", ","] 2) =
        .ok statement' ∧ statement'.sql = statement.sql := by
  obtain ⟨statement, h⟩ : ∃ statement,
      contractDefinitions.statement (selecting "a" ["b", "c"] 1) = .ok statement :=
    exists_of_accepted (by decide +kernel)
  obtain ⟨statement', h'⟩ : ∃ statement',
      contractDefinitions.statement (selecting "1; DROP TABLE edc_asset--" ["(", ","] 2) =
        .ok statement' := exists_of_accepted (by decide +kernel)
  exact ⟨statement, statement', h, h', (sql_of_outline h).2 _ _ h' (by decide +kernel)⟩

end BucketTransfer.Query
