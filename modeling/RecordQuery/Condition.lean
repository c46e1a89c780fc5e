import RecordQuery.Coercion
import RecordQuery.Filter
import RecordQuery.Filter.Printer
import RecordQuery.Schema.Resolve

/-!
# Conditions

A condition is a leaf of a filter read against a record type: its column is resolved, its operator
fits the column's type, and its raw text is converted to a value.

* `Options` are the switches of reading a filter;
* `Schema.checkOperator` tells whether an operator fits a column;
* `Schema.condition` reads a leaf.
-/

namespace RecordQuery

/-- How a filter is read: whether null on the way to a column is guarded against, and whether
alternate names are tried. -/
structure Options where
  nullGuard : Bool
  fallback : Bool
  deriving DecidableEq, Repr

/-- No guard and no alternate names. -/
def Options.usual : Options := ⟨false, false⟩

/-- A test of a resolved column against a value. -/
structure Condition where
  column : ResolvedColumn
  operator : Operator
  value : Value

namespace Schema

/-- The error of an operator that does not fit a column. -/
def mismatch (column : ResolvedColumn) (operator : String) (cause : MismatchCause) : Error :=
  .mismatch operator column.type.name (some column.path.text) cause

/-- Refuses an operator that a column's type does not support: tests of a beginning or an end are
for texts, comparisons for types with an order, and equality for columns that are no
collections. -/
def checkOperator (s : Schema) (column : ResolvedColumn) (operator : Operator) :
    Except Error Unit :=
  if operator.isTextual && !column.type.isText then
    .error (mismatch column operator.word .textOnly)
  else if operator.isOrdering && (column.isCollection || !s.isOrderable column.type) then
    .error (mismatch column operator.word .noOrdering)
  else if (operator == .eq || operator == .neq || operator == .isIn) && column.isCollection then
    .error (mismatch column operator.word .elementTest)
  else .ok ()

/-- The column that a path names on a type, where the path may begin with the column of the
enclosing quantifier. -/
def resolveIn (s : Schema) (options : Options) (owner : TypeExpr) (scope : Option ColumnPath)
    (path : ColumnPath) : Except Error ResolvedColumn := do
  s.resolve options.fallback owner (← path.within scope)

/-- The condition that a leaf states about records of a type. -/
def condition (s : Schema) (options : Options) (owner : TypeExpr) (scope : Option ColumnPath)
    (path : ColumnPath) (operator : Operator) (raw : RawText) : Except Error Condition := do
  let column ← s.resolveIn options owner scope path
  s.checkOperator column operator
  let value ← s.coerce raw column.type operator
  .ok ⟨column, operator, value⟩

end Schema
end RecordQuery
