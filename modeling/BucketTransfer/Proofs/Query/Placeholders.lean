import BucketTransfer.Proofs.Query.Outline
import BucketTransfer.Proofs.Text.Pieces

/-!
# Question marks and the values bound to them

A query has a statement exactly if each of its criteria has a condition and its sort field names a
column; otherwise the first that has none decides the error. The statement is put together from
clauses, and each clause brings one value for each of its question marks, so that every question
mark is bound to a value of its own clause, however the conditions are reordered.
-/
namespace BucketTransfer.Query

/-! ## Statements in parts -/

namespace Statement

/-- There are as many values as question marks. -/
def Bound (s : Statement) : Prop := s.sql.toList.count '?' = s.parameters.length

variable {parts : List Statement} {front rest : List Char}

theorem bound_text {text : String} (h : '?' ∉ text.toList) : Bound ⟨text, []⟩ :=
  List.count_eq_zero.2 h

theorem Bound.append {a b : Statement} (ha : a.Bound) (hb : b.Bound) : (a ++ b).Bound := by
  change (a.sql ++ b.sql).toList.count '?' = (a.parameters ++ b.parameters).length
  rw [String.toList_append, List.count_append, List.length_append, ha, hb]

theorem bound_join (h : ∀ part ∈ parts, part.Bound) : (join parts).Bound := by
  induction parts with
  | nil => rfl
  | cons part parts ih =>
    obtain ⟨hpart, hparts⟩ := List.forall_mem_cons.1 h
    rw [join_cons]
    exact hpart.append (ih hparts)

/-- A question mark stands in one of the parts, and this part brings the value that is bound to it:
`front` is what the statement has in front of the question mark, `inner` what the part has. -/
structure Supplied (before : List Statement) (part : Statement) (after : List Statement)
    (front inner : List Char) : Prop where
  within : ∃ outer, part.sql.toList = inner ++ '?' :: outer
  front_eq : front = (join before).sql.toList ++ inner
  number : front.count '?' = (join before).parameters.length + inner.count '?'
  value : ∃ value, part.parameters[inner.count '?']? = some value ∧
    (join (before ++ part :: after)).parameters[front.count '?']? = some value

/-- A question mark in the text of a statement stands in one of its parts. -/
private theorem exists_part (hmark : (join parts).sql.toList = front ++ '?' :: rest) :
    ∃ before part after inner outer, parts = before ++ part :: after ∧
      part.sql.toList = inner ++ '?' :: outer ∧ front = (join before).sql.toList ++ inner := by
  induction parts generalizing front with
  | nil => exact absurd hmark (by simp [join, String.join])
  | cons part parts ih =>
    have hsplit : part.sql.toList ++ (join parts).sql.toList = front ++ '?' :: rest := by
      rw [← String.toList_append, ← hmark, join_cons]
      rfl
    rcases Text.split_of_append_eq hsplit with ⟨later, rfl, hlater⟩ | ⟨outer, houter⟩
    · obtain ⟨before, owner, after, inner, outer, rfl, howner, rfl⟩ := ih hlater
      refine ⟨part :: before, owner, after, inner, outer, rfl, howner, ?_⟩
      rw [join_cons, ← List.append_assoc]
      exact congrArg (· ++ inner) String.toList_append.symm
    · exact ⟨[], part, parts, front, outer, rfl, houter, rfl⟩

/-- If each part is bound, each question mark of the whole is supplied by the part it stands in. -/
theorem exists_supplied (h : ∀ part ∈ parts, part.Bound)
    (hmark : (join parts).sql.toList = front ++ '?' :: rest) :
    ∃ before part after inner, parts = before ++ part :: after ∧
      Supplied before part after front inner := by
  obtain ⟨before, part, after, inner, outer, rfl, houter, rfl⟩ := exists_part hmark
  obtain ⟨hbefore, hpart⟩ := List.forall_mem_append.1 h
  have hnumber : ((join before).sql.toList ++ inner).count '?' =
      (join before).parameters.length + inner.count '?' := by
    rw [List.count_append, bound_join hbefore]
  have hlt : inner.count '?' < part.parameters.length := by
    rw [← hpart part List.mem_cons_self, houter, List.count_append, List.count_cons_self]
    omega
  have hparameters : (join (before ++ part :: after)).parameters =
      (join before).parameters ++ (part.parameters ++ (join after).parameters) := by
    rw [join_append, join_cons]
    rfl
  refine ⟨before, part, after, inner, rfl, ⟨outer, houter⟩, rfl, hnumber,
    part.parameters[inner.count '?'], List.getElem?_eq_getElem hlt, ?_⟩
  rw [hparameters, hnumber, List.getElem?_append_right (Nat.le_add_right _ _),
    Nat.add_sub_cancel_left, List.getElem?_append_left hlt, List.getElem?_eq_getElem hlt]

end Statement

/-! ## Clauses -/

/-- The clauses of a query's statement in their order: the table, the expansion of an array if a
condition is about its elements, the conditions with those on elements last, the order and the page.
-/
def Schema.clauses (s : Schema) (conditions : List Condition) (order : Option Statement)
    (limit offset : Nat) : List Statement :=
  ⟨"SELECT " ++ s.table ++ ".* FROM " ++ s.table, []⟩ ::
    (conditions.filterMap (·.array)).head?.toList.map
      (fun array => ⟨", " ++ s.expansion array, []⟩) ++
    conditionClauses ((conditions.filter (·.array.isNone) ++ conditions.filter (·.array.isSome)).map
      (·.toStatement)) ++
    order.toList.flatMap (fun key => [⟨" ORDER BY ", []⟩, key]) ++
    [⟨" LIMIT ? OFFSET ?", [.nat limit, .nat offset]⟩]

namespace Schema
variable {s : Schema}

/-- What is gathered for some conditions and an order is built from its clauses. -/
theorem build_selection (conditions : List Condition) (order : Option Statement)
    (limit offset : Nat) :
    (s.selection (conditions.filter (·.array.isNone)) (conditions.filter (·.array.isSome))
      order).build limit offset = .join (s.clauses conditions order limit offset) := by
  have hexpansions : ((s.expansions (conditions.filter (·.array.isSome))).map fun source =>
      (⟨", " ++ source, []⟩ : Statement)) = (conditions.filterMap (·.array)).head?.toList.map
        fun array => ⟨", " ++ s.expansion array, []⟩ := by
    rw [expansions_filter, expansions, List.map_map]
    rfl
  rw [selection, Selection.build_holding, hexpansions, clauses]

/-! ## Which queries have a statement -/

/-- A criterion and its condition, which is about the elements of an array if its operand is. -/
structure Translates (s : Schema) (c : Criterion) (d : Condition) : Prop where
  condition_eq : s.condition c = .ok d
  array_eq_iff (array : ArrayColumn) :
    d.array = some array ↔ ∃ field, s.resolve c.left = .ok (.element array field)

/-- The order that a query asks for: the column that its sort field names, with the direction. -/
def Orders (s : Schema) (q : Spec) (order : Option Statement) : Prop :=
  match q.sortField with
  | none => order = none
  | some field => ∃ name path, s.resolve field = .ok (.column name path) ∧
      let column := s.expression (.column name path)
      order = some ⟨column.sql ++ " " ++ q.sortOrder.keyword, column.parameters⟩

/-- Why a query has no statement: the first criterion that has no condition, or else what the sort
field lacks. -/
inductive Refuses (s : Schema) (q : Spec) : Error → Prop where
  | criterion {before after : List Criterion} {c : Criterion} {e : Error}
      (split : q.filter = before ++ c :: after) (earlier : ∀ b ∈ before, ∃ d, s.condition b = .ok d)
      (refused : s.condition c = .error e) : Refuses s q e
  | unresolved {field : String} {e : Error} (filter : ∀ c ∈ q.filter, ∃ d, s.condition c = .ok d)
      (sorted : q.sortField = some field) (refused : s.resolve field = .error e) : Refuses s q e
  | element {field name : String} {array : ArrayColumn}
      (filter : ∀ c ∈ q.filter, ∃ d, s.condition c = .ok d) (sorted : q.sortField = some field)
      (resolved : s.resolve field = .ok (.element array name)) :
      Refuses s q (.unsupportedOperand s.table field .elementOrder)

variable {q : Spec} {c : Criterion} {d : Condition} {e : Error} {field : String}

private theorem translates_of_condition (h : s.condition c = .ok d) : s.Translates c d := by
  refine ⟨h, fun array => ?_⟩
  obtain ⟨operand, compared, hoperand, -, rfl⟩ := exists_of_condition h
  rw [hoperand]
  cases operand with
  | column name path => simp [Operand.array]
  | element array' field => simp [Operand.array, eq_comm]

/-! ## One value for each question mark -/

private theorem unmarked_append {a b : String} (ha : '?' ∉ a.toList) (hb : '?' ∉ b.toList) :
    '?' ∉ (a ++ b).toList := by
  rw [String.toList_append, List.mem_append]
  exact fun h => h.elim ha hb

/-- The names that a schema gives have no question marks. -/
def Clean (s : Schema) : Prop := ∀ name ∈ s.names, '?' ∉ name.toList

theorem Clean.qualified (hs : s.Clean) {name : String} (h : name ∈ s.names) :
    '?' ∉ (s.qualified name).toList := by
  have htable : '?' ∉ s.table.toList := hs s.table (by simp [names])
  exact unmarked_append (unmarked_append htable (by decide)) (hs name h)

theorem count_arrows (n : Nat) : (arrows n).toList.count '?' = n := by
  fun_induction arrows n with
  | case1 => rfl
  | case2 => rfl
  | case3 n ih =>
    have harrow : " -> ?".toList.count '?' = 1 := by decide
    rw [String.toList_append, List.count_append, harrow, ih, Nat.add_comm]

/-- An operand has a question mark for each name that it binds. -/
theorem Clean.expression (hs : s.Clean) {operand : Operand} (h : s.Has operand) :
    (s.expression operand).Bound := by
  cases operand with
  | column name path =>
    have hcolumn := List.count_eq_zero.2 (hs.qualified h.mem_names)
    change (s.qualified name ++ arrows path.length).toList.count '?' = (path.map Json.string).length
    rw [String.toList_append, List.count_append, hcolumn, count_arrows, List.length_map,
      Nat.zero_add]
  | element array field =>
    have harray : s.array = some array := h
    have helement := List.count_eq_zero.2 (hs array.element (by simp [names, harray]))
    change (array.element ++ " ->> ?").toList.count '?' = 1
    rw [String.toList_append, List.count_append, helement]
    rfl

private theorem count_places (n : Nat) :
    (", ".intercalate (List.replicate n "?")).toList.count '?' = n := by
  induction n with
  | zero => rfl
  | succ n ih =>
    cases n with
    | zero => rfl
    | succ n =>
      rw [List.replicate_succ, List.replicate_succ, String.intercalate_cons_cons,
        ← List.replicate_succ, String.toList_append, List.count_append, ih, Nat.add_comm]
      rfl

/-- A comparison has a question mark for each value that is bound of its right operand. -/
theorem count_text (op : Operator) (value : Json) :
    (op.text (Kind.ofJson value)).toList.count '?' = (boundOf value).length := by
  cases value with
  | null =>
    change (if op = .eq then " IS NULL" else " IS NOT NULL").toList.count '?' = 0
    split
    all_goals decide
  | array values =>
    change (" IN (" ++ ", ".intercalate (List.replicate values.length "?") ++ ")").toList.count
      '?' = values.length
    rw [String.toList_append, String.toList_append, List.count_append, List.count_append,
      count_places]
    exact Nat.zero_add _
  | bool | number | string | object =>
    change (" " ++ op.keyword ++ " ?").toList.count '?' = 1
    cases op
    all_goals decide

theorem Clean.condition (hs : s.Clean) (h : s.condition c = .ok d) : d.Bound := by
  obtain ⟨operand, compared, hoperand, hcompared, rfl⟩ := exists_of_condition h
  rw [comparison_eq hcompared]
  have hright : Statement.Bound ⟨c.operator.text (Kind.ofJson c.right), boundOf c.right⟩ :=
    count_text c.operator c.right
  have hboth := (hs.expression (has_of_resolve hoperand)).append hright
  rwa [Statement.append_eq] at hboth

theorem Clean.order (hs : s.Clean) {order : Option Statement} (h : s.Orders q order) :
    ∀ key ∈ order, key.Bound := by
  rintro key hkey
  unfold Orders at h
  split at h
  · subst h
    cases hkey
  · obtain ⟨name, path, hresolve, rfl⟩ := h
    cases hkey
    have hdirection : Statement.Bound ⟨" " ++ q.sortOrder.keyword, []⟩ := by
      refine Statement.bound_text ?_
      cases q.sortOrder <;> decide
    have hkey := (hs.expression (has_of_resolve hresolve)).append hdirection
    rwa [Statement.append_eq, List.append_nil, ← String.append_assoc] at hkey

private theorem bound_conditionClauses {conditions : List Statement}
    (h : ∀ c ∈ conditions, c.Bound) : ∀ part ∈ conditionClauses conditions, part.Bound := by
  cases conditions with
  | nil => exact fun part hpart => absurd hpart List.not_mem_nil
  | cons first others =>
    obtain ⟨hfirst, hothers⟩ := List.forall_mem_cons.1 h
    refine List.forall_mem_cons.2 ⟨Statement.bound_text (by decide),
      List.forall_mem_cons.2 ⟨hfirst, fun part hpart => ?_⟩⟩
    obtain ⟨c, hc, hpart⟩ := List.mem_flatMap.1 hpart
    rcases List.mem_pair.1 hpart with rfl | rfl
    · exact Statement.bound_text (by decide)
    · exact hothers _ hc

theorem Clean.clauses (hs : s.Clean) {conditions : List Condition}
    (hconditions : ∀ d ∈ conditions, ∃ c, s.condition c = .ok d) {order : Option Statement}
    (horder : s.Orders q order) (limit offset : Nat) :
    ∀ part ∈ s.clauses conditions order limit offset, part.Bound := by
  have htable : '?' ∉ s.table.toList := hs s.table (by simp [names])
  have hexpansions : ∀ array ∈ (conditions.filterMap (·.array)).head?.toList,
      '?' ∉ (", " ++ s.expansion array).toList := by
    intro array harray
    obtain ⟨d, hd, hsome⟩ := List.mem_filterMap.1
      (List.mem_of_mem_head? (Option.mem_toList.1 harray))
    obtain ⟨c, hc⟩ := hconditions d hd
    have hnames : s.array = some array := has_of_condition hc hsome
    have hcolumn : '?' ∉ (s.qualified array.column).toList := hs.qualified (by simp [names, hnames])
    have helement : '?' ∉ array.element.toList := hs _ (by simp [names, hnames])
    exact unmarked_append (by decide) (unmarked_append (unmarked_append (unmarked_append (by decide)
      hcolumn) (by decide)) helement)
  have hbound : ∀ d ∈ conditions, d.Bound := by
    intro d hd
    obtain ⟨c, hc⟩ := hconditions d hd
    exact hs.condition hc
  intro part hpart
  simp only [Schema.clauses, List.mem_append, List.mem_cons, List.mem_map, List.mem_flatMap,
    List.not_mem_nil, or_false] at hpart
  rcases hpart with (((rfl | ⟨array, harray, rfl⟩) | hpart) | ⟨key, hkey, rfl | rfl⟩) | rfl
  · exact Statement.bound_text (unmarked_append (unmarked_append (unmarked_append (by decide)
      htable) (by decide)) htable)
  · exact Statement.bound_text (hexpansions array harray)
  · refine bound_conditionClauses (fun c hc => ?_) part hpart
    obtain ⟨d, hd, rfl⟩ := List.mem_map.1 hc
    exact hbound d ((List.mem_append.1 hd).elim List.mem_of_mem_filter List.mem_of_mem_filter)
  · exact Statement.bound_text (by decide)
  · exact hs.order horder _ (Option.mem_toList.1 hkey)
  · have hpage : " LIMIT ? OFFSET ?".toList.count '?' = 2 := by decide
    exact hpage

/-! ## Success and failure -/

theorem sortKey_eq_ok_iff {direction : SortOrder} {key : Statement} :
    s.sortKey field direction = .ok key ↔
      ∃ name path, s.resolve field = .ok (.column name path) ∧
        let column := s.expression (.column name path)
        key = ⟨column.sql ++ " " ++ direction.keyword, column.parameters⟩ := by
  constructor
  · intro h
    obtain ⟨operand, hoperand, h⟩ := exists_of_bind h
    cases operand with
    | column name path => exact ⟨name, path, hoperand, (Except.ok.inj h).symm⟩
    | element array name => cases h
  · rintro ⟨name, path, hresolve, rfl⟩
    rw [sortKey, hresolve]
    rfl

theorem sortKey_eq_error_iff {direction : SortOrder} :
    s.sortKey field direction = .error e ↔
      s.resolve field = .error e ∨ ∃ array name, s.resolve field = .ok (.element array name) ∧
        e = .unsupportedOperand s.table field .elementOrder := by
  rw [sortKey, bind_eq_error_iff]
  refine or_congr_right ⟨?_, ?_⟩
  · rintro ⟨operand, hoperand, h⟩
    cases operand with
    | column name path => cases h
    | element array name => exact ⟨array, name, hoperand, (Except.error.inj h).symm⟩
  · rintro ⟨array, name, hresolve, rfl⟩
    exact ⟨_, hresolve, rfl⟩

/-- A query is translated if its criteria and its order are. -/
theorem translate_eq_ok_iff {statement : Statement} : s.translate q = .ok statement ↔
    ∃ conditions order, List.Forall₂ (fun c d => s.condition c = .ok d) q.filter conditions ∧
      (q.sortField.mapM fun field => s.sortKey field q.sortOrder) = .ok order ∧
        statement = .join (s.clauses conditions order q.limit q.offset) := by
  simp only [← mapM_eq_ok_iff, translate_eq, build_selection]
  constructor
  · intro h
    obtain ⟨conditions, hconditions, h⟩ := exists_of_bind h
    obtain ⟨order, horder, h⟩ := exists_of_bind h
    exact ⟨conditions, order, hconditions, horder, (Except.ok.inj h).symm⟩
  · rintro ⟨conditions, order, hconditions, horder, rfl⟩
    rw [hconditions]
    change (_ >>= fun order => _) = _
    rw [horder]
    rfl

private theorem orders_of_mapM {order : Option Statement}
    (h : (q.sortField.mapM fun field => s.sortKey field q.sortOrder) = .ok order) :
    s.Orders q order := by
  unfold Orders
  rcases option_mapM_eq_ok_iff.1 h with ⟨hfield, rfl⟩ | ⟨field, key, hfield, hkey, rfl⟩
  · rw [hfield]
  · rw [hfield]
    obtain ⟨name, path, hresolve, rfl⟩ := sortKey_eq_ok_iff.1 hkey
    exact ⟨name, path, hresolve, rfl⟩

theorem exists_translate_iff : (∃ f, s.translate q = .ok f) ↔
    (∀ c ∈ q.filter, ∃ d, s.condition c = .ok d) ∧
      ∀ field ∈ q.sortField, ∃ name path, s.resolve field = .ok (.column name path) := by
  simp only [translate_eq_ok_iff, ← exists_forall₂_iff]
  constructor
  · rintro ⟨f, conditions, order, hconditions, horder, -⟩
    refine ⟨⟨conditions, hconditions⟩, fun field hfield => ?_⟩
    rcases option_mapM_eq_ok_iff.1 horder with ⟨hnone, -⟩ | ⟨field', key, hsome, hkey, -⟩
    · rw [hnone] at hfield
      cases hfield
    · rw [hsome] at hfield
      cases hfield
      obtain ⟨name, path, hresolve, -⟩ := sortKey_eq_ok_iff.1 hkey
      exact ⟨name, path, hresolve⟩
  · rintro ⟨⟨conditions, hconditions⟩, hsort⟩
    obtain ⟨order, horder⟩ : ∃ order,
        (q.sortField.mapM fun field => s.sortKey field q.sortOrder) = .ok order := by
      cases hfield : q.sortField with
      | none => exact ⟨none, rfl⟩
      | some field =>
        obtain ⟨name, path, hresolve⟩ := hsort field hfield
        exact ⟨_, option_mapM_eq_ok_iff.2
          (.inr ⟨field, _, rfl, sortKey_eq_ok_iff.2 ⟨name, path, hresolve, rfl⟩, rfl⟩)⟩
    exact ⟨_, conditions, order, hconditions, horder, rfl⟩

/-- A query is refused by its criteria before its sort field counts. -/
theorem translate_eq_error_iff : s.translate q = .error e ↔ s.Refuses q e := by
  rw [translate_eq, bind_eq_error_iff]
  constructor
  · rintro (hfilter | ⟨conditions, hconditions, h⟩)
    · obtain ⟨before, c, after, hsplit, hbefore, hc⟩ := mapM_eq_error_iff.1 hfilter
      exact .criterion hsplit hbefore hc
    · have hall := exists_forall₂_iff.1 ⟨conditions, mapM_eq_ok_iff.1 hconditions⟩
      rcases bind_eq_error_iff.1 h with hsort | ⟨order, -, h⟩
      · obtain ⟨field, hfield, hkey⟩ := option_mapM_eq_error_iff.1 hsort
        rcases sortKey_eq_error_iff.1 hkey with hresolve | ⟨array, name, hresolve, rfl⟩
        · exact .unresolved hall hfield hresolve
        · exact .element hall hfield hresolve
      · cases h
  · intro h
    have hsorted : ∀ {field : String}, (∀ c ∈ q.filter, ∃ d, s.condition c = .ok d) →
        q.sortField = some field → s.sortKey field q.sortOrder = .error e →
        ∃ conditions, q.filter.mapM s.condition = .ok conditions ∧
          ((q.sortField.mapM fun field => s.sortKey field q.sortOrder) >>= fun order =>
            .ok ((s.selection (conditions.filter (·.array.isNone))
              (conditions.filter (·.array.isSome)) order).build q.limit q.offset)) = .error e := by
      intro field hall hfield hkey
      obtain ⟨conditions, hconditions⟩ := exists_forall₂_iff.2 hall
      exact ⟨conditions, mapM_eq_ok_iff.2 hconditions,
        bind_eq_error_iff.2 (.inl (option_mapM_eq_error_iff.2 ⟨field, hfield, hkey⟩))⟩
    cases h with
    | criterion split earlier refused =>
      exact .inl (mapM_eq_error_iff.2 ⟨_, _, _, split, earlier, refused⟩)
    | unresolved filter sorted refused =>
      exact .inr (hsorted filter sorted (sortKey_eq_error_iff.2 (.inl refused)))
    | element filter sorted resolved =>
      exact .inr (hsorted filter sorted (sortKey_eq_error_iff.2 (.inr ⟨_, _, resolved, rfl⟩)))

/-- A translated query is its clauses, each of which is bound. -/
theorem Clean.layout (hs : s.Clean) {statement : Statement} (h : s.translate q = .ok statement) :
    ∃ conditions order, List.Forall₂ s.Translates q.filter conditions ∧ s.Orders q order ∧
      statement = .join (s.clauses conditions order q.limit q.offset) ∧
        ∀ clause ∈ s.clauses conditions order q.limit q.offset, clause.Bound := by
  obtain ⟨conditions, order, hconditions, horder, rfl⟩ := translate_eq_ok_iff.1 h
  have hfound : ∀ d ∈ conditions, ∃ c, s.condition c = .ok d := fun d hd =>
    (exists_of_forall₂ hconditions d hd).imp fun c hc => hc.2
  exact ⟨conditions, order, hconditions.imp fun c d => translates_of_condition,
    orders_of_mapM horder, rfl, hs.clauses hfound (orders_of_mapM horder) q.limit q.offset⟩

end Schema

/-! ## Every placeholder is bound to its own value -/

theorem Store.clean (store : Store) : store.schema.Clean := by
  cases store
  all_goals
    rw [Schema.Clean]
    decide

/-- A query has a statement exactly if each criterion has a condition and the sort field, if there
is one, names a column; else the first criterion without one decides the error, or the sort field.
The statement is made of its clauses in their order; each clause brings one value for each of its
question marks; so there are as many values as question marks, and the value for each question mark
is brought by the clause that it stands in. -/
theorem Store.placeholders_bound (store : Store) (q : Spec) :
    let s := store.schema
    ((∃ statement, store.statement q = .ok statement) ↔
      (∀ c ∈ q.filter, ∃ d, s.condition c = .ok d) ∧
        ∀ field ∈ q.sortField, ∃ name path, s.resolve field = .ok (.column name path)) ∧
    (∀ e, store.statement q = .error e ↔ s.Refuses q e) ∧
    ∀ statement, store.statement q = .ok statement →
      ∃ conditions order, List.Forall₂ s.Translates q.filter conditions ∧ s.Orders q order ∧
        let clauses := s.clauses conditions order q.limit q.offset
        statement = .join clauses ∧ (∀ clause ∈ clauses, clause.Bound) ∧ statement.Bound ∧
          ∀ front rest, statement.sql.toList = front ++ '?' :: rest →
            ∃ before clause after inner, clauses = before ++ clause :: after ∧
              Statement.Supplied before clause after front inner := by
  intro s
  refine ⟨Schema.exists_translate_iff, fun e => Schema.translate_eq_error_iff,
    fun statement h => ?_⟩
  obtain ⟨conditions, order, hconditions, horder, rfl, hbound⟩ := store.clean.layout h
  exact ⟨conditions, order, hconditions, horder, rfl, hbound, Statement.bound_join hbound,
    fun front rest => Statement.exists_supplied hbound⟩

/-- The same search, in the order of a private property. -/
def selectingRanked (asset : String) (owners : List String) (limit : Nat) : Spec :=
  { selecting asset owners limit with sortField := some "privateProperties.rank" }

theorem Store.placeholders_bound_of_selectingRanked : ∃ statement,
    contractDefinitions.statement (selectingRanked "a" ["b", "c"] 1) = .ok statement ∧
      statement.sql.toList.count '?' = 9 ∧ statement.parameters.length = 9 := by
  obtain ⟨statement, h⟩ : ∃ statement,
      contractDefinitions.statement (selectingRanked "a" ["b", "c"] 1) = .ok statement :=
    exists_of_accepted (by decide +kernel)
  have hparameters : (contractDefinitions.statement (selectingRanked "a" ["b", "c"] 1)).toOption.map
      (·.parameters.length) = some 9 := by decide +kernel
  rw [h] at hparameters
  have hlength : statement.parameters.length = 9 := Option.some.inj hparameters
  obtain ⟨-, -, hplaceholders⟩ :=
    placeholders_bound contractDefinitions (selectingRanked "a" ["b", "c"] 1)
  obtain ⟨conditions, order, -, -, -, -, hbound, -⟩ := hplaceholders statement h
  exact ⟨statement, h, hbound.trans hlength, hlength⟩

end BucketTransfer.Query
