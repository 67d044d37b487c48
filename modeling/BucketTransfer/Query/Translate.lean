import BucketTransfer.Query.Criterion
import BucketTransfer.Query.Store

/-!
# Queries in SQL

A query becomes one `SELECT` over its store's table. Conditions on the elements of an array come
after the others, with the array expanded once. Operands and values are bound, never written.
-/
namespace BucketTransfer.Query

/-- The steps down a path of some length; the last one asks for text. -/
def arrows : Nat → String
  | 0 => ""
  | 1 => " ->> ?"
  | n + 2 => " -> ?" ++ arrows (n + 1)

/-- A column, or a field below it, with the path bound. -/
def jsonPath (column : String) (path : List String) : Statement :=
  ⟨column ++ arrows path.length, path.map .string⟩

namespace Schema

/-- The value of an operand. -/
def expression (s : Schema) : Operand → Statement
  | .column name path => jsonPath (s.qualified name) path
  | .element array field => ⟨array.element ++ " ->> ?", [.string field]⟩

/-- The expansion of an array column into its elements. -/
def expansion (s : Schema) (array : ArrayColumn) : String :=
  "json_array_elements(" ++ s.qualified array.column ++ ") AS " ++ array.element

end Schema

/-- An expression compared with a right operand, and the values that only the latter binds. -/
def comparison (expression : String) (operator : Operator) (right : Json) :
    Except Error Statement :=
  let invalid (misfit : Misfit) : Except Error Statement :=
    .error (.invalidRightOperand operator.symbol misfit)
  match right, operator with
  | .array values, .oneOf =>
    if values.isEmpty then invalid .emptyList
    else
      let places := ", ".intercalate (List.replicate values.length "?")
      .ok ⟨expression ++ " IN (" ++ places ++ ")", values⟩
  | _, .oneOf => invalid .notList
  | .array _, _ => invalid .notScalar
  | .object _, _ => invalid .notScalar
  | .null, .eq => .ok ⟨expression ++ " IS NULL", []⟩
  | .null, .ne => .ok ⟨expression ++ " IS NOT NULL", []⟩
  | .null, _ => invalid .nullOrder
  | value, op => .ok ⟨expression ++ " " ++ op.keyword ++ " ?", [value]⟩

/-- The array whose elements an operand is about, if it is. -/
def Operand.array : Operand → Option ArrayColumn
  | .column .. => none
  | .element array _ => some array

/-- A criterion in SQL; `array` is the array whose elements it is about, if it is. -/
structure Condition extends Statement where
  array : Option ArrayColumn

namespace Schema

def condition (s : Schema) (c : Criterion) : Except Error Condition := do
  let operand ← s.resolve c.left
  let expression := s.expression operand
  let compared ← comparison expression.sql c.operator c.right
  .ok ⟨⟨compared.sql, expression.parameters ++ compared.parameters⟩, operand.array⟩

/-- A criterion's condition is added at once, but one on the elements of an array is put off. -/
def gather (s : Schema) : Selection × List Condition → Criterion →
    Except Error (Selection × List Condition)
  | (b, elements), c => do
    let d ← s.condition c
    match d.array with
    | none => .ok (b.addCondition d.sql d.parameters, elements)
    | some _ => .ok (b, elements ++ [d])

/-- A condition on the elements of an array needs the array expanded. -/
def addElement (s : Schema) (b : Selection) (d : Condition) : Selection :=
  match d.array with
  | none => b
  | some array => (b.addSource (s.expansion array)).addCondition d.sql d.parameters

/-- What the rows are ordered by. -/
def sortKey (s : Schema) (field : String) (order : SortOrder) : Except Error Statement := do
  match ← s.resolve field with
  | .column name path =>
    let expression := s.expression (.column name path)
    .ok ⟨expression.sql ++ " " ++ order.keyword, expression.parameters⟩
  | .element .. => .error (.unsupportedOperand s.table field .elementOrder)

def addOrder (s : Schema) (q : Spec) (b : Selection) : Except Error Selection :=
  match q.sortField with
  | none => .ok b
  | some field => do
    let key ← s.sortKey field q.sortOrder
    .ok (b.orderBy key.sql key.parameters)

/-- A query in SQL. The first criterion that has none decides the error, then the sort field. -/
def translate (s : Schema) (q : Spec) : Except Error Statement := do
  let table : Selection := { select := "SELECT " ++ s.table ++ ".* FROM " ++ s.table }
  let (b, elements) ← q.filter.foldlM s.gather (table, [])
  let b ← s.addOrder q (elements.foldl s.addElement b)
  .ok (b.build q.limit q.offset)

/-! ## Statements on one row -/

def findTemplate (s : Schema) : String := s!"SELECT * FROM {s.table} WHERE {s.idColumn} = ?"

def insertTemplate (s : Schema) : String :=
  let names := ", ".intercalate (s.columns.map (·.name))
  let places := ", ".intercalate (s.columns.map Column.placeholder)
  s!"INSERT INTO {s.table} ({names}) VALUES ({places})"

def updateTemplate (s : Schema) : String :=
  let changed := s.columns.filter fun c => c.name != s.idColumn
  let assignments := ", ".intercalate (changed.map fun c => c.name ++ " = " ++ c.placeholder)
  s!"UPDATE {s.table} SET {assignments} WHERE {s.idColumn} = ?"

def deleteTemplate (s : Schema) : String := s!"DELETE FROM {s.table} WHERE {s.idColumn} = ?"

def countTemplate (s : Schema) : String :=
  s!"SELECT COUNT(*) FROM {s.table} WHERE {s.idColumn} = ?"

end Schema

/-- The statement of a query against a store. -/
def Store.statement (store : Store) (q : Spec) : Except Error Statement :=
  store.schema.translate q

end BucketTransfer.Query
