import RecordQuery.Condition

/-!
# Backends

A filter can become several things: a predicate over records in memory, a clause of a database
query, a fingerprint. What is common to all of them is the walk over the tree, which resolves
columns, checks operators and converts values; what differs is a `Backend`.

* `Backend` says what each kind of node becomes;
* `Backend.compile` reads a list of filters, all of which have to hold.

The conditions of a quantified filter are about the elements of its column, and are read against
the type of these elements, without the part of their columns that the quantifier names.
-/

namespace RecordQuery

/-- What the nodes of a filter become. -/
structure Backend (α : Type) where
  condition : Condition → Except Error α
  conjunction : List α → α
  disjunction : List α → α
  quantified : Quantifier → ResolvedColumn → α → Except Error α

namespace Backend

variable {α : Type}

/-- What a group becomes. -/
def group (b : Backend α) : Connective → List α → α
  | .and => b.conjunction
  | .or => b.disjunction

/-- The column of a quantifier with the type of its elements. -/
def collection (s : Schema) (options : Options) (owner : TypeExpr) (scope : Option ColumnPath)
    (q : Quantifier) (path : ColumnPath) : Except Error (ResolvedColumn × TypeExpr) := do
  let column ← s.resolveIn options owner scope path
  match column.element? with
  | some e => .ok (column, e)
  | none => .error (Schema.mismatch column q.word .noCollection)

mutual

/-- What a filter about records of a type becomes. -/
def compileNode (b : Backend α) (s : Schema) (options : Options) (owner : TypeExpr)
    (scope : Option ColumnPath) : Filter → Except Error α
  | .leaf path operator raw => do
    b.condition (← s.condition options owner scope path operator raw)
  | .group k children => (compileAll b s options owner scope children).map (b.group k)
  | .quantified q path children => do
    -- the conditions are about the elements, and their columns begin with this path
    let (column, element) ← collection s options owner scope q path
    let parts ← compileAll b s options element (some path) children
    b.quantified q column (b.conjunction parts)
termination_by structural f => f

/-- What several filters become, from left to right. -/
def compileAll (b : Backend α) (s : Schema) (options : Options) (owner : TypeExpr)
    (scope : Option ColumnPath) : List Filter → Except Error (List α)
  | [] => .ok []
  | f :: fs => do
    let part ← compileNode b s options owner scope f
    let parts ← compileAll b s options owner scope fs
    .ok (part :: parts)
termination_by structural fs => fs

end

/-- What a list of filters becomes, all of which have to hold. -/
def compile (b : Backend α) (s : Schema) (options : Options) (type : TypeExpr)
    (filters : List Filter) : Except Error α :=
  match filters with
  -- a single filter is not wrapped into a conjunction
  | [f] => b.compileNode s options type none f
  | fs => (b.compileAll s options type none fs).map b.conjunction

end Backend
end RecordQuery
