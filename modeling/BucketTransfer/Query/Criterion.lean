import BucketTransfer.Json.Printer
import BucketTransfer.Json.Record
import BucketTransfer.Query.Error
import BucketTransfer.Text.Blank

/-!
# Queries

What to look for in a store: criteria that must all hold, an order, and a page of the result. A
criterion compares a property path with a JSON value.
-/
namespace BucketTransfer.Query

inductive Operator where
  | eq
  | ne
  | lt
  | le
  | gt
  | ge
  | oneOf
  | like
  | ilike
  deriving DecidableEq, Repr

namespace Operator

/-- The operator in queries and messages. -/
def symbol : Operator → String
  | .eq => "="
  | .ne => "!="
  | .lt => "<"
  | .le => "<="
  | .gt => ">"
  | .ge => ">="
  | .oneOf => "in"
  | .like => "like"
  | .ilike => "ilike"

/-- The operator in SQL. -/
def keyword : Operator → String
  | .eq => "="
  | .ne => "<>"
  | .lt => "<"
  | .le => "<="
  | .gt => ">"
  | .ge => ">="
  | .oneOf => "IN"
  | .like => "LIKE"
  | .ilike => "ILIKE"

def all : List Operator := [.eq, .ne, .lt, .le, .gt, .ge, .oneOf, .like, .ilike]

/-- Reads a symbol of either case, with blanks around it; SQL's sign of inequality will do too. -/
def parse (s : String) : Except Error Operator :=
  let name := (Text.trim s).map Char.toLower
  if name = "<>" then .ok .ne
  else match all.find? fun op => op.symbol == name with
    | some op => .ok op
    | none => .error (.unknownOperator s)

def reader : Json.Reader Operator := Json.Reader.choice (all.map fun op => (op.symbol, op))

end Operator

/-- A condition on one property. -/
structure Criterion where
  left : String
  operator : Operator
  right : Json

namespace Criterion

/-- The criterion in words. -/
def display (c : Criterion) : String := s!"{c.left} {c.operator.symbol} {c.right.text}"

def toJson (c : Criterion) : Json :=
  .object [("operandLeft", .string c.left), ("operator", .string c.operator.symbol),
    ("operandRight", c.right)]

def reader : Json.Reader Criterion :=
  (Json.Fields.and (.required "operandLeft" Json.Reader.string) <|
    .and (.required "operator" Operator.reader) <|
    .and (.required "operandRight" Json.Reader.value) .none).into
    fun (left, operator, right, ()) => ⟨left, operator, right⟩

end Criterion

inductive SortOrder where
  | ascending
  | descending
  deriving DecidableEq, Repr

/-- The order in queries and in SQL. -/
def SortOrder.keyword : SortOrder → String
  | .ascending => "ASC"
  | .descending => "DESC"

def SortOrder.reader : Json.Reader SortOrder :=
  Json.Reader.choice ([.ascending, .descending].map fun o => (SortOrder.keyword o, o))

/-- How many rows a query asks for unless it says so. -/
def defaultLimit : Nat := 50

/-- A query against one store. -/
structure Spec where
  filter : List Criterion := []
  sortField : Option String := none
  sortOrder : SortOrder := .ascending
  limit : Nat := defaultLimit
  offset : Nat := 0

namespace Spec

def isDefault (q : Spec) : Bool :=
  q.filter.isEmpty && q.sortField.isNone && q.sortOrder == .ascending && q.limit == defaultLimit
    && q.offset == 0

def toJson (q : Spec) : Json :=
  .object [("filter", .array (q.filter.map Criterion.toJson)),
    ("sortField", .ofOption q.sortField), ("sortOrder", .string q.sortOrder.keyword),
    ("limit", .nat q.limit), ("offset", .nat q.offset)]

def reader : Json.Reader Spec :=
  (Json.Fields.and (.defaulted "filter" Criterion.reader.list []) <|
    .and (.defaulted "sortField" Json.Reader.string.optional none) <|
    .and (.defaulted "sortOrder" SortOrder.reader .ascending) <|
    .and (.defaulted "limit" (Json.Reader.natural Text.maxU32) defaultLimit) <|
    .and (.defaulted "offset" (Json.Reader.natural Text.maxU32) 0) .none).into
    fun (filter, sortField, sortOrder, limit, offset, ()) =>
      ⟨filter, sortField, sortOrder, limit, offset⟩

end Spec

end BucketTransfer.Query
