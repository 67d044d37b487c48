import BucketTransfer.Proofs.Query.Placeholders

/-!
# The values that queries bind

A query binds the names in its operands' paths, its limit and its offset, and what its criteria
compare with. Of the latter a value by itself is a scalar, and null has words of its own; but what
stands in a list is bound as it is.
-/
namespace BucketTransfer.Query

/-- The criterion looks for a value in a list, and this one is in the list. -/
def Criterion.Lists (c : Criterion) (v : Json) : Prop :=
  ∃ values, c.operator = .oneOf ∧ c.right = .array values ∧ v ∈ values

variable {op : Operator} {value v : Json} {expression : String} {compared : Statement}

/-! ## Comparisons -/

/-- Only a list binds what is no scalar. -/
theorem exists_array_of_comparison (h : comparison expression op value = .ok compared)
    (hv : v ∈ boundOf value) (hscalar : v.isScalar = false) :
    ∃ values, op = .oneOf ∧ value = .array values ∧ v ∈ values := by
  cases value with
  | null => exact absurd hv List.not_mem_nil
  | bool | number | string =>
    rw [List.mem_singleton.1 hv] at hscalar
    cases hscalar
  | object members =>
    cases op
    all_goals cases h
  | array values =>
    cases op with
    | oneOf => exact ⟨values, rfl, rfl, hv⟩
    | _ => cases h

/-- Null is compared by words of its own, and only for equality. -/
theorem comparison_null (h : comparison expression op .null = .ok compared) :
    op = .eq ∧ compared = ⟨expression ++ " IS NULL", []⟩ ∨
      op = .ne ∧ compared = ⟨expression ++ " IS NOT NULL", []⟩ := by
  cases op with
  | eq => exact .inl ⟨rfl, (Except.ok.inj h).symm⟩
  | ne => exact .inr ⟨rfl, (Except.ok.inj h).symm⟩
  | _ => cases h

/-! ## Statements -/

namespace Schema
variable {s : Schema} {c : Criterion} {d : Condition} {q : Spec}

/-- The values of a statement in their order: of the conditions, of the order and of the page. -/
theorem parameters_clauses (s : Schema) (conditions : List Condition) (order : Option Statement)
    (limit offset : Nat) :
    (s.clauses conditions order limit offset).flatMap (·.parameters) =
      (conditions.filter (·.array.isNone) ++ conditions.filter (·.array.isSome)).flatMap
          (·.parameters) ++
        order.toList.flatMap (·.parameters) ++ [.nat limit, .nat offset] := by
  have hexpansions (arrays : List ArrayColumn) :
      (arrays.map fun array => (⟨", " ++ s.expansion array, []⟩ : Statement)).flatMap
        (·.parameters) = [] := by
    simp [List.flatMap_map]
  simp only [clauses, List.cons_append, List.flatMap_cons, List.flatMap_append, List.nil_append,
    hexpansions, parameters_conditionClauses, List.flatMap_map, List.flatMap_assoc,
    List.flatMap_nil, List.append_nil]

/-- An operand binds names. -/
theorem parameters_expression (s : Schema) (operand : Operand) :
    ∀ v ∈ (s.expression operand).parameters, v.isScalar = true := by
  intro v hv
  cases operand with
  | column name path =>
    obtain ⟨field, -, rfl⟩ := List.mem_map.1 hv
    rfl
  | element array field =>
    rw [List.mem_singleton.1 hv]
    rfl

/-- What a condition binds is a scalar, or stands in its criterion's list. -/
theorem mem_parameters_condition (h : s.condition c = .ok d) (hscalar : v.isScalar = false) :
    v ∈ d.parameters ↔ c.Lists v := by
  obtain ⟨operand, compared, -, hcompared, rfl⟩ := exists_of_condition h
  rw [List.mem_append, comparison_eq hcompared]
  constructor
  · rintro (hv | hv)
    · rw [s.parameters_expression operand v hv] at hscalar
      cases hscalar
    · exact exists_array_of_comparison hcompared hv hscalar
  · rintro ⟨values, -, hright, hv⟩
    rw [hright]
    exact .inr hv

theorem parameters_order {order : Option Statement} (h : s.Orders q order) :
    ∀ v ∈ order.toList.flatMap (·.parameters), v.isScalar = true := by
  unfold Orders at h
  split at h
  · rw [h]
    exact fun v hv => absurd hv List.not_mem_nil
  · obtain ⟨name, path, -, rfl⟩ := h
    intro v hv
    rw [Option.toList_some, List.flatMap_singleton] at hv
    exact s.parameters_expression _ v hv

end Schema

namespace Store
variable {store : Store} {q : Spec} {statement : Statement}

private theorem mem_parameters (h : store.statement q = .ok statement)
    (hscalar : v.isScalar = false) :
    v ∈ statement.parameters ↔ ∃ c ∈ q.filter, c.Lists v := by
  obtain ⟨conditions, order, hconditions, horder, rfl, -⟩ := store.clean.layout h
  rw [Statement.join, Schema.parameters_clauses, List.mem_append, List.mem_append]
  constructor
  · rintro ((hv | hv) | hv)
    · obtain ⟨d, hd, hv⟩ := List.mem_flatMap.1 hv
      have hd : d ∈ conditions :=
        (List.mem_append.1 hd).elim List.mem_of_mem_filter List.mem_of_mem_filter
      obtain ⟨c, hc, htranslates⟩ := exists_of_forall₂ hconditions d hd
      exact ⟨c, hc, (Schema.mem_parameters_condition htranslates.condition_eq hscalar).1 hv⟩
    · rw [Schema.parameters_order horder v hv] at hscalar
      cases hscalar
    · rcases List.mem_pair.1 hv with rfl | rfl
      all_goals cases hscalar
  · rintro ⟨c, hc, hv⟩
    obtain ⟨d, hd, htranslates⟩ := exists_of_forall₂ hconditions.flip c hc
    refine .inl (.inl (List.mem_flatMap.2 ⟨d, List.mem_append.2 ?_,
      (Schema.mem_parameters_condition htranslates.condition_eq hscalar).2 hv⟩))
    cases harray : d.array with
    | none => exact .inl (List.mem_filter.2 ⟨hd, by rw [harray]; rfl⟩)
    | some array => exact .inr (List.mem_filter.2 ⟨hd, by rw [harray]; rfl⟩)

/-- What a statement binds is a scalar, but for what is no scalar in the list of a criterion, and
all of that is bound too. So all that is bound are scalars exactly if all lists hold scalars only.
Null by itself is never bound: it is compared by words of its own, for equality or inequality. -/
theorem bound_values (h : store.statement q = .ok statement) :
    (∀ v, v.isScalar = false → (v ∈ statement.parameters ↔ ∃ c ∈ q.filter, c.Lists v)) ∧
    ((∀ v ∈ statement.parameters, v.isScalar = true) ↔
      ∀ c ∈ q.filter, ∀ v, c.Lists v → v.isScalar = true) ∧
    ∀ c ∈ q.filter, c.right = .null → ∃ operand d,
      store.schema.resolve c.left = .ok operand ∧ store.schema.condition c = .ok d ∧
        d.parameters = (store.schema.expression operand).parameters ∧
        (c.operator = .eq ∧ d.sql = (store.schema.expression operand).sql ++ " IS NULL" ∨
          c.operator = .ne ∧
            d.sql = (store.schema.expression operand).sql ++ " IS NOT NULL") := by
  refine ⟨fun v => mem_parameters h, ⟨fun hall c hc v hv => ?_, fun hall v hv => ?_⟩, ?_⟩
  · by_contra hscalar
    exact hscalar (hall v ((mem_parameters h (eq_false_of_ne_true hscalar)).2 ⟨c, hc, hv⟩))
  · by_contra hscalar
    obtain ⟨c, hc, hlisted⟩ := (mem_parameters h (eq_false_of_ne_true hscalar)).1 hv
    exact hscalar (hall c hc v hlisted)
  · intro c hc hnull
    obtain ⟨d, hd⟩ := (Schema.exists_translate_iff.1 ⟨statement, h⟩).1 c hc
    obtain ⟨operand, compared, hoperand, hcompared, rfl⟩ := Schema.exists_of_condition hd
    rw [hnull] at hcompared
    refine ⟨operand, _, hoperand, hd, ?_, ?_⟩
    · rw [comparison_eq hcompared]
      exact List.append_nil _
    · exact (comparison_null hcompared).imp (.imp_right (congrArg Statement.sql))
        (.imp_right (congrArg Statement.sql))

/-- Transfers in one of some states that have failed. -/
def failedIn (states : List Json) : Spec where
  filter := [⟨"state", .oneOf, .array states⟩, ⟨"errorDetail", .ne, .null⟩]

theorem bound_values_of_failedIn : ∃ statement,
    transferProcesses.statement (failedIn [.nat 500, .null]) = .ok statement ∧
      .null ∈ statement.parameters := by
  obtain ⟨statement, h⟩ : ∃ statement,
      transferProcesses.statement (failedIn [.nat 500, .null]) = .ok statement :=
    exists_of_accepted (by decide +kernel)
  have hlisted : Criterion.Lists ⟨"state", .oneOf, .array [.nat 500, .null]⟩ .null :=
    ⟨_, rfl, rfl, List.mem_cons_of_mem _ List.mem_cons_self⟩
  exact ⟨statement, h, ((bound_values h).1 .null rfl).2 ⟨_, List.mem_cons_self, hlisted⟩⟩

/-- Null and whole lists and objects are bound if they stand in a list. -/
theorem not_scalar_of_listed :
    ¬∀ (store : Store) (q : Spec) (statement : Statement), store.statement q = .ok statement →
      ∀ v ∈ statement.parameters, v.isScalar = true := by
  intro h
  let q := failedIn [.null, .array [.nat 500], .object []]
  obtain ⟨statement, hq⟩ : ∃ statement, transferProcesses.statement q = .ok statement :=
    exists_of_accepted (by decide +kernel)
  have hparameters : (transferProcesses.statement q).toOption.map
      (·.parameters.map Json.isScalar) = some [false, false, false, true, true] := by
    decide +kernel
  rw [hq] at hparameters
  have hscalars : statement.parameters.map Json.isScalar = [false, false, false, true, true] :=
    Option.some.inj hparameters
  have hmem : false ∈ statement.parameters.map Json.isScalar := by
    rw [hscalars]
    exact List.mem_cons_self
  obtain ⟨v, hv, hscalar⟩ := List.mem_map.1 hmem
  exact absurd (h _ q statement hq v hv) (by simp [hscalar])

end Store

end BucketTransfer.Query
