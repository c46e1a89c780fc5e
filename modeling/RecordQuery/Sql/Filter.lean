import RecordQuery.Backend
import RecordQuery.Registry
import RecordQuery.Sql.Attribute
import RecordQuery.Sql.Text

/-!
# Filters as clauses

A filter over a mapped type as a clause about rows of its table.

* `clauseBackend` says what the nodes of a filter become;
* `compileClause` makes the clause of a list of filters.

A condition on a member of a related row asks for that row, for every hop of its path. That every
element of a collection satisfies a condition is said as: there is none that does not.
-/

namespace RecordQuery

open Sql

/-- The usual meanings of the operators in clauses. -/
def usualClauses : Registry ClauseStrategy := .ofAll "SQLAlchemy" .usual

/-- The error of a hop that is no relation. -/
def noRelationship (c : ResolvedColumn) (hop : Hop) : Error :=
  .resolution (.of c.path.text hop.name hop.owner.name [] (.noRelationship hop.name))

/-- The link of a hop, which has to be a relation. -/
def Schema.requireLink (s : Schema) (c : ResolvedColumn) (hop : Hop) : Except Error RowLink :=
  if hop.relationship then
    match s.linkOf? hop with
    | some link => .ok link
    | none => .error (.fault .missingMember)
  else .error (noRelationship c hop)

/-- A clause about the last row of a path as a clause about the first one. -/
def Schema.throughRelations (s : Schema) (c : ResolvedColumn) (clause : Clause) :
    Except Error Clause :=
  c.leading.foldrM
    (fun hop inner => (s.requireLink c hop).map fun link => .related link inner.asPart) clause

/-- A clause about some or every row of a collection. -/
def quantifiedClause (link : RowLink) (inner : Clause) : Quantifier → Except Error Clause
  | .any => .ok (.related link inner.asPart)
  | .all =>
    match inner with
    | .verdict _ => .error (.fault .invalidClause)
    | inner => .ok (Clause.negate (.related link inner.negate))

/-- Filters as clauses, with strategies from a registry. -/
def clauseBackend (s : Schema) (registry : Registry ClauseStrategy) : Backend Clause where
  condition c := do
    let member ← s.attributeAt c.column.terminal
    let strategy ← registry.require c.operator
    let clause ← liftFault (member.clause strategy c.value)
    s.throughRelations c.column clause
  conjunction := Clause.joinAll .and
  disjunction := Clause.joinAll .or
  quantified q column inner :=
    if column.terminal.relationship then do
      let link ← s.requireLink column column.terminal
      s.throughRelations column (← quantifiedClause link inner q)
    else .error (Schema.mismatch column q.word .noRelationship)

/-- The clause of a list of filters, all of which have to hold. Nulls on the way are no concern
here. -/
def compileClause (s : Schema) (options : Options) (registry : Registry ClauseStrategy)
    (type : TypeExpr) (filters : List Filter) : Except Error Clause :=
  (clauseBackend s registry).compile s options type filters

/-- The text of a clause on its own. A truth value that is no part of a clause has no text, nor has
a clause with a value that cannot be written. -/
def Sql.Clause.render : Clause → Except Error String
  | .verdict _ => .error (.fault .missingMember)
  | c => if c.isWritable then .ok (oneLine (c.text [])) else .error (.fault .noLiteral)

end RecordQuery
