import BucketTransfer.Text.Quoted

/-!
# Why a query has no SQL

Each cause and its wording.
-/
namespace BucketTransfer.Query

/-- What a table lacks for an operand that it knows. -/
inductive Missing where
  | elsewhere
  | notJson
  | fieldPath
  | elementOrder
  deriving DecidableEq, Repr

def Missing.message : Missing → String
  | .elsewhere => "stored outside this table"
  | .notJson => "column is not JSON"
  | .fieldPath => "JSON column needs a field path"
  | .elementOrder => "cannot sort by array elements"

/-- How a right operand fails its operator. -/
inductive Misfit where
  | emptyList
  | notList
  | notScalar
  | nullOrder
  deriving DecidableEq, Repr

def Misfit.message : Misfit → String
  | .emptyList => "list must not be empty"
  | .notList => "expected a list"
  | .notScalar => "expected a scalar"
  | .nullOrder => "null only compares with = or !="

inductive Error where
  | unknownOperand (table operand : String)
  | unsupportedOperand (table operand : String) (missing : Missing)
  | unknownOperator (symbol : String)
  | invalidRightOperand (symbol : String) (misfit : Misfit)
  | unterminatedQuote (operand : String)
  deriving DecidableEq, Repr

open Text in
def Error.message : Error → String
  | .unknownOperand table operand => s!"unknown operand {quoted operand} for {table}"
  | .unsupportedOperand table operand missing =>
    s!"operand {quoted operand} is not supported for {table}: {missing.message}"
  | .unknownOperator symbol => s!"unknown operator {quoted symbol}"
  | .invalidRightOperand symbol misfit =>
    s!"invalid right operand for {symbol}: {misfit.message}"
  | .unterminatedQuote operand => s!"unterminated quote in {quoted operand}"

end BucketTransfer.Query
