import BucketTransfer.Json.Value

/-!
# Statements and how they are gathered

A statement is SQL with question marks, and beside it the values that are bound to them in order.
While the clauses of a selection are gathered, each clause has a text of its own, but the values of
all clauses go to one list, in the order in which the clauses come.
-/
namespace BucketTransfer.Query

/-- SQL with question marks, and the values bound to them in order. -/
structure Statement where
  sql : String
  parameters : List Json := []

/-- The clauses of a selection from a table, and the values of all of them. -/
structure Selection where
  select : String
  sources : List String := []
  conditions : List String := []
  order : Option String := none
  parameters : List Json := []

namespace Selection

/-- Adds something to select from, once. -/
def addSource (b : Selection) (source : String) : Selection :=
  if b.sources.contains source then b else { b with sources := b.sources ++ [source] }

def addCondition (b : Selection) (condition : String) (parameters : List Json) : Selection :=
  { b with
    conditions := b.conditions ++ [condition]
    parameters := b.parameters ++ parameters }

def orderBy (b : Selection) (key : String) (parameters : List Json) : Selection :=
  { b with
    order := some key
    parameters := b.parameters ++ parameters }

/-- The whole statement, for one page of the rows. -/
def build (b : Selection) (limit offset : Nat) : Statement where
  sql :=
    b.select ++ String.join (b.sources.map (", " ++ ·)) ++
      (if b.conditions.isEmpty then "" else " WHERE " ++ " AND ".intercalate b.conditions) ++
      (match b.order with
      | none => ""
      | some key => " ORDER BY " ++ key) ++
      " LIMIT ? OFFSET ?"
  parameters := b.parameters ++ [.nat limit, .nat offset]

end Selection

end BucketTransfer.Query
