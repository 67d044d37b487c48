import BucketTransfer.Query.Path
import BucketTransfer.Query.Statement

/-!
# Tables and what their property paths name

A path names a column, a field inside a JSON column, or a field of each element of an array column.
Properties may be dotted themselves, so the longest one that fits wins.
-/
namespace BucketTransfer.Query

inductive ColumnKind where
  | scalar
  | json
  deriving DecidableEq, Repr

/-- A column and the property that names it. -/
structure Column where
  kind : ColumnKind
  property : String
  name : String
  deriving DecidableEq, Repr

/-- What a value of the column is bound to. -/
def Column.placeholder (c : Column) : String :=
  match c.kind with
  | .scalar => "?"
  | .json => "?::json"

/-- A JSON column of arrays whose elements have fields that can be compared. -/
structure ArrayColumn where
  property : String
  column : String
  element : String
  fields : List String
  deriving DecidableEq, Repr

/-- A table; its columns are in the order of insertion. Operands that name nothing are keys of the
fallback column. -/
structure Schema where
  table : String
  idColumn : String
  columns : List Column
  fallback : Option String := none
  array : Option ArrayColumn := none
  unsupported : List String := []
  deriving DecidableEq, Repr

/-- What an operand stands for. -/
inductive Operand where
  | column (name : String) (path : List String)
  | element (array : ArrayColumn) (field : String)
  deriving DecidableEq, Repr

namespace Schema

/-- The column of a property. -/
def column? (s : Schema) (property : String) : Option Column :=
  s.columns.find? fun c => c.property == property

/-- The column that the longest possible start of a path names, with the rest of the path. -/
def longest (s : Schema) (path : List String) : Nat → Option (Column × List String)
  | 0 => none
  | n + 1 =>
    match s.column? (".".intercalate (path.take (n + 1))) with
    | some c => some (c, path.drop (n + 1))
    | none => s.longest path n

/-- What a path of one segment or more stands for. -/
def resolvePath (s : Schema) (operand head : String) (rest : List String) :
    Except Error Operand :=
  let unsupported (missing : Missing) : Except Error Operand :=
    .error (.unsupportedOperand s.table operand missing)
  let inColumns : Except Error Operand :=
    if s.unsupported.contains head then unsupported .elsewhere
    else match s.longest (head :: rest) (head :: rest).length with
      | some (c, path) =>
        match c.kind, path with
        | .scalar, [] => .ok (.column c.name [])
        | .scalar, _ :: _ => unsupported .notJson
        | .json, [] => unsupported .fieldPath
        | .json, _ :: _ => .ok (.column c.name path)
      | none =>
        match s.fallback with
        | some column => .ok (.column column [Path.unquote operand])
        | none => .error (.unknownOperand s.table operand)
  match s.array with
  | none => inColumns
  | some array =>
    if head ≠ array.property then inColumns
    else match rest with
      | [field] =>
        if array.fields.contains field then .ok (.element array field)
        else .error (.unknownOperand s.table operand)
      | _ => .error (.unknownOperand s.table operand)

/-- What an operand stands for. -/
def resolve (s : Schema) (operand : String) : Except Error Operand := do
  match ← Path.split operand with
  | [] => .error (.unknownOperand s.table operand)
  | head :: rest => s.resolvePath operand head rest

/-- A column with its table. -/
def qualified (s : Schema) (column : String) : String := s.table ++ "." ++ column

def isJsonColumn (s : Schema) (column : String) : Bool :=
  s.columns.any fun c => c.name == column && c.kind == .json

end Schema

end BucketTransfer.Query
