import BucketTransfer.Proofs.Outcome
import BucketTransfer.Query.Translate

/-!
# How a statement is gathered

The texts of the conditions and the values that they bind go to two lists, criterion by criterion,
those on the elements of an array after all others, and then the order brings its own. Each step
keeps the lists together: the values are at any time those of the conditions in the order of the
texts. So the statement that is built is made of clauses that bring their own values.
-/
namespace BucketTransfer.Query

/-! ## Statements in parts -/

namespace Statement

instance : Append Statement where
  append a b := ⟨a.sql ++ b.sql, a.parameters ++ b.parameters⟩

theorem append_eq (a b : Statement) :
    a ++ b = ⟨a.sql ++ b.sql, a.parameters ++ b.parameters⟩ := rfl

/-- The parts of a statement, one after the other. -/
def join (parts : List Statement) : Statement :=
  ⟨String.join (parts.map (·.sql)), parts.flatMap (·.parameters)⟩

theorem join_cons (part : Statement) (parts : List Statement) :
    join (part :: parts) = part ++ join parts := by
  change Statement.mk _ _ = Statement.mk _ _
  rw [List.map_cons, String.join_cons, List.flatMap_cons]
  rfl

theorem join_append (parts others : List Statement) :
    join (parts ++ others) = join parts ++ join others := by
  change Statement.mk _ _ = Statement.mk _ _
  rw [List.map_append, String.join_append, List.flatMap_append]
  rfl

end Statement

/-! ## Selections that hold clauses -/

/-- Conditions behind `WHERE`, with `AND` between each two. -/
def conditionClauses : List Statement → List Statement
  | [] => []
  | first :: others => ⟨" WHERE ", []⟩ :: first :: others.flatMap fun c => [⟨" AND ", []⟩, c]

theorem sql_conditionClauses (conditions : List Statement) :
    String.join ((conditionClauses conditions).map (·.sql)) =
      if (conditions.map (·.sql)).isEmpty then ""
      else " WHERE " ++ " AND ".intercalate (conditions.map (·.sql)) := by
  cases conditions with
  | nil => rfl
  | cons first others =>
    have hothers (first : Statement) (others : List Statement) :
        " AND ".intercalate ((first :: others).map (·.sql)) =
          first.sql ++ String.join ((others.flatMap fun c => [⟨" AND ", []⟩, c]).map (·.sql)) := by
      induction others generalizing first with
      | nil => simp
      | cons next others ih =>
        rw [List.map_cons, List.map_cons, String.intercalate_cons_cons, ← List.map_cons, ih]
        simp [String.append_assoc]
    rw [conditionClauses, List.map_cons, List.map_cons, String.join_cons, String.join_cons, hothers]
    rfl

theorem parameters_conditionClauses (conditions : List Statement) :
    (conditionClauses conditions).flatMap (·.parameters) = conditions.flatMap (·.parameters) := by
  cases conditions with
  | nil => rfl
  | cons first others => simp [conditionClauses, List.flatMap_assoc]

namespace Selection

/-- A selection that holds some conditions and an order, and the values of all of these. -/
def holding (select : String) (sources : List String) (conditions : List Statement)
    (order : Option Statement) : Selection where
  select := select
  sources := sources
  conditions := conditions.map (·.sql)
  order := order.map (·.sql)
  parameters := conditions.flatMap (·.parameters) ++ order.toList.flatMap (·.parameters)

variable {select : String} {sources : List String} {conditions : List Statement}

theorem addSource_holding (order : Option Statement) (source : String) :
    (holding select sources conditions order).addSource source =
      holding select (if sources.contains source then sources else sources ++ [source])
        conditions order := by
  change (if sources.contains source then _ else _) = _
  split
  all_goals rfl

theorem addCondition_holding (c : Statement) :
    (holding select sources conditions none).addCondition c.sql c.parameters =
      holding select sources (conditions ++ [c]) none := by
  simp [addCondition, holding]

theorem orderBy_holding (key : Statement) :
    (holding select sources conditions none).orderBy key.sql key.parameters =
      holding select sources conditions (some key) := by
  simp [orderBy, holding]

/-- The clauses that are held, one after the other. -/
theorem build_holding (order : Option Statement) (limit offset : Nat) :
    (holding select sources conditions order).build limit offset =
      .join (⟨select, []⟩ :: sources.map (fun source => ⟨", " ++ source, []⟩) ++
        conditionClauses conditions ++
        order.toList.flatMap (fun key => [⟨" ORDER BY ", []⟩, key]) ++
        [⟨" LIMIT ? OFFSET ?", [.nat limit, .nat offset]⟩]) := by
  have hsources : (sources.map fun source => (⟨", " ++ source, []⟩ : Statement)).map (·.sql) =
      sources.map (", " ++ ·) := by
    rw [List.map_map]
    rfl
  have hvalues : (sources.map fun source => (⟨", " ++ source, []⟩ : Statement)).flatMap
      (·.parameters) = [] := by
    simp [List.flatMap_map]
  change Statement.mk _ _ = Statement.mk _ _
  congr 1
  · simp only [List.map_append, List.map_cons, List.cons_append, String.join_append,
      String.join_cons, hsources, sql_conditionClauses]
    cases order with
    | none => simp [holding, String.append_assoc]
    | some key => simp [holding, String.append_assoc]
  · simp only [List.flatMap_append, List.flatMap_cons, List.cons_append, hvalues,
      parameters_conditionClauses]
    cases order with
    | none => simp [holding]
    | some key => simp [holding]

end Selection

namespace Schema
variable {s : Schema}

/-! ## Arrays -/

/-- Operands that are made of the schema's names, apart from paths and fields. -/
def Has (s : Schema) : Operand → Prop
  | .column name _ => name ∈ s.columns.map (·.name) ∨ s.fallback = some name
  | .element array _ => s.array = some array

theorem mem_of_longest {path rest : List String} {n : Nat} {c : Column}
    (h : s.longest path n = some (c, rest)) : c ∈ s.columns := by
  induction n with
  | zero => cases h
  | succ n ih =>
    rw [longest] at h
    split at h
    · rename_i found hfound
      cases h
      exact List.mem_of_find?_eq_some hfound
    · exact ih h

theorem has_of_resolve {text : String} {operand : Operand} (h : s.resolve text = .ok operand) :
    s.Has operand := by
  obtain ⟨path, -, h⟩ := exists_of_bind h
  cases path with
  | nil => cases h
  | cons head rest =>
    dsimp only [resolvePath] at h
    repeat' split at h
    all_goals cases h
    all_goals first
      | exact Or.inl (List.mem_map_of_mem (mem_of_longest ‹_›))
      | exact Or.inr ‹_›
      | exact ‹s.array = some _›

/-- The conditions are about no other array than the schema's. -/
def Fits (s : Schema) (conditions : List Condition) : Prop :=
  ∀ d ∈ conditions, ∀ array, d.array = some array → s.array = some array

/-- A condition is the comparison of its operand; the operand's values come before the others. -/
theorem exists_of_condition {c : Criterion} {d : Condition} (h : s.condition c = .ok d) :
    ∃ operand compared, s.resolve c.left = .ok operand ∧
      comparison (s.expression operand).sql c.operator c.right = .ok compared ∧
      d = ⟨⟨compared.sql, (s.expression operand).parameters ++ compared.parameters⟩,
        operand.array⟩ := by
  obtain ⟨operand, hoperand, h⟩ := exists_of_bind h
  obtain ⟨compared, hcompared, h⟩ := exists_of_bind h
  exact ⟨operand, compared, hoperand, hcompared, (Except.ok.inj h).symm⟩

theorem has_of_condition {c : Criterion} {d : Condition} (h : s.condition c = .ok d)
    {array : ArrayColumn} (harray : d.array = some array) : s.array = some array := by
  obtain ⟨operand, compared, hoperand, -, rfl⟩ := exists_of_condition h
  cases operand with
  | column name path => cases harray
  | element array' field =>
    cases harray
    exact has_of_resolve hoperand

theorem fits_of_mapM {cs : List Criterion} {conditions : List Condition}
    (h : cs.mapM s.condition = .ok conditions) : s.Fits conditions := by
  intro d hd array harray
  obtain ⟨c, -, hc⟩ := exists_of_forall₂ (mapM_eq_ok_iff.1 h) d hd
  exact has_of_condition hc harray

/-! ## The steps and the run -/

/-- The expansion that conditions need: of the array, if one of them is about its elements. -/
def expansions (s : Schema) (conditions : List Condition) : List String :=
  (conditions.filterMap (·.array)).head?.toList.map s.expansion

theorem expansions_filter (conditions : List Condition) :
    s.expansions (conditions.filter (·.array.isSome)) = s.expansions conditions := by
  rw [expansions, expansions, List.filterMap_filter]
  congr 4
  funext d
  cases d.array <;> rfl

/-- What is selected for some conditions in their order: those on elements come after the others. -/
def selection (s : Schema) (plain elements : List Condition) (order : Option Statement) :
    Selection :=
  .holding ("SELECT " ++ s.table ++ ".* FROM " ++ s.table) (s.expansions elements)
    ((plain ++ elements).map (·.toStatement)) order

theorem selection_addCondition (plain : List Condition) (d : Condition) :
    (s.selection plain [] none).addCondition d.sql d.parameters =
      s.selection (plain ++ [d]) [] none := by
  rw [selection, Selection.addCondition_holding]
  simp [selection]

/-- The array is expanded with the first condition on its elements. -/
theorem addElement_selection {plain elements : List Condition} {d : Condition}
    (hfits : s.Fits (elements ++ [d])) (hd : d.array.isSome) :
    s.addElement (s.selection plain elements none) d =
      s.selection plain (elements ++ [d]) none := by
  obtain ⟨array, harray⟩ := Option.isSome_iff_exists.1 hd
  have hexpansions : (if (s.expansions elements).contains (s.expansion array) then
      s.expansions elements else s.expansions elements ++ [s.expansion array]) =
        s.expansions (elements ++ [d]) := by
    rw [expansions, expansions, List.filterMap_append]
    cases hseen : elements.filterMap (·.array) with
    | nil => simp [harray]
    | cons first rest =>
      have hfirst : first ∈ elements.filterMap (·.array) := hseen ▸ List.mem_cons_self
      obtain ⟨e, he, hsome⟩ := List.mem_filterMap.1 hfirst
      have hsame : first = array := Option.some.inj <|
        (hfits e (List.mem_append_left _ he) first hsome).symm.trans
          (hfits d (by simp) array harray)
      simp [hsame]
  rw [addElement, harray]
  dsimp only
  rw [selection, Selection.addSource_holding, Selection.addCondition_holding, hexpansions]
  simp [selection]

theorem foldl_addElement {plain seen elements : List Condition} (hfits : s.Fits (seen ++ elements))
    (helements : ∀ d ∈ elements, d.array.isSome) :
    elements.foldl s.addElement (s.selection plain seen none) =
      s.selection plain (seen ++ elements) none := by
  induction elements generalizing seen with
  | nil => rw [List.append_nil]; rfl
  | cons d elements ih =>
    obtain ⟨hd, hrest⟩ := List.forall_mem_cons.1 helements
    rw [List.append_cons] at hfits ⊢
    rw [List.foldl_cons, addElement_selection (fun e he => hfits e (List.mem_append_left _ he)) hd]
    exact ih hfits hrest

/-- The criteria are gathered if each has a condition, and fail like the first that has none. -/
theorem foldlM_gather (cs : List Criterion) (plain elements : List Condition) :
    cs.foldlM s.gather (s.selection plain [] none, elements) =
      (cs.mapM s.condition).map fun conditions =>
        (s.selection (plain ++ conditions.filter (·.array.isNone)) [] none,
          elements ++ conditions.filter (·.array.isSome)) := by
  induction cs generalizing plain elements with
  | nil => simp [pure, Except.pure, Except.map]
  | cons c cs ih =>
    simp only [List.foldlM_cons, List.mapM_cons, gather, bind, Except.bind]
    cases hc : s.condition c with
    | error e => rfl
    | ok d =>
      cases harray : d.array with
      | none =>
        simp only [harray, selection_addCondition, ih]
        cases cs.mapM s.condition with
        | error e => rfl
        | ok ds => simp [pure, Except.pure, Except.map, harray]
      | some array =>
        simp only [harray, ih]
        cases cs.mapM s.condition with
        | error e => rfl
        | ok ds => simp [pure, Except.pure, Except.map, harray]

theorem addOrder_selection (q : Spec) (plain elements : List Condition) :
    s.addOrder q (s.selection plain elements none) =
      (q.sortField.mapM fun field => s.sortKey field q.sortOrder).map
        (s.selection plain elements) := by
  rw [addOrder]
  cases q.sortField with
  | none => rfl
  | some field =>
    change (s.sortKey field q.sortOrder >>= fun key => _) =
      Except.map _ (some <$> s.sortKey field q.sortOrder)
    cases s.sortKey field q.sortOrder with
    | error e => rfl
    | ok key => exact congrArg Except.ok (Selection.orderBy_holding key)

/-- The whole run: what is built holds the conditions of all criteria, those on elements last, and
then the order. -/
theorem translate_eq (s : Schema) (q : Spec) :
    s.translate q = (do
      let conditions ← q.filter.mapM s.condition
      let order ← q.sortField.mapM fun field => s.sortKey field q.sortOrder
      .ok ((s.selection (conditions.filter (·.array.isNone)) (conditions.filter (·.array.isSome))
        order).build q.limit q.offset)) := by
  have hfilter : q.filter.foldlM s.gather
      (({ select := "SELECT " ++ s.table ++ ".* FROM " ++ s.table } : Selection), []) = _ :=
    s.foldlM_gather q.filter [] []
  rw [translate, hfilter]
  cases hconditions : q.filter.mapM s.condition with
  | error e => rfl
  | ok conditions =>
    have hfits : s.Fits ([] ++ conditions.filter (·.array.isSome)) := fun d hd =>
      fits_of_mapM hconditions d (List.mem_of_mem_filter hd)
    have helements : ∀ d ∈ conditions.filter (·.array.isSome), d.array.isSome := fun d hd =>
      (List.mem_filter.1 hd).2
    change (s.addOrder q ((conditions.filter (·.array.isSome)).foldl s.addElement
      (s.selection (conditions.filter (·.array.isNone)) [] none)) >>= fun b => _) = _
    rw [foldl_addElement hfits helements, addOrder_selection]
    change (Except.map _ (q.sortField.mapM _) >>= fun b => _) = (q.sortField.mapM _ >>= fun b => _)
    cases q.sortField.mapM fun field => s.sortKey field q.sortOrder with
    | error e => rfl
    | ok order => rfl

end Schema

end BucketTransfer.Query
