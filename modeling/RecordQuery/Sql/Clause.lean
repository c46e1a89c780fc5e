import RecordQuery.Operator
import RecordQuery.Value

/-!
# Clauses of a database query

The conditions that select rows of a table, as a tree.

* `Clause` is a condition about one row; `Clause.related` asks for a row of another table that is
  linked to it;
* `Clause.combine` joins clauses, `Clause.negate` negates one.

Joining keeps clauses small: constants that change nothing are left out, one that decides the
result stands for all, and parts that are joined in the same way are taken apart. Negation changes
a test into the opposite test where there is one.
-/

namespace RecordQuery.Sql

/-- A column of a table, by the name of the table or of its alias. The values that it is compared
with have literal forms, unless its type does not give them any. -/
structure ColumnRef where
  table : String
  label : String
  hasLiterals : Bool
  deriving DecidableEq, Repr

/-- The comparisons of a column with a value. -/
inductive Comparison where
  | eq
  | ne
  | gt
  | ge
  | lt
  | le
  deriving DecidableEq, Repr

/-- The comparison that holds exactly when another one does not. -/
def Comparison.negated : Comparison → Comparison
  | eq => ne
  | ne => eq
  | gt => le
  | ge => lt
  | lt => ge
  | le => gt

/-- Where in a text another one has to stand. -/
inductive Place where
  | anywhere
  | start
  | finish
  deriving DecidableEq, Repr

/-- Two tables and the columns that are equal in rows that belong together: a key, and a column that
refers to it. Either the rows of the target refer to their owner, or the owner refers to a row of the
target. -/
structure RowLink where
  target : String
  owner : String
  left : ColumnRef
  right : ColumnRef
  toOwner : Bool
  deriving DecidableEq, Repr

namespace RowLink

/-- The column of the owner, by its label. -/
def ownerLabel (link : RowLink) : String :=
  if link.toOwner then link.left.label else link.right.label

/-- The column of the target, by its label. -/
def targetLabel (link : RowLink) : String :=
  if link.toOwner then link.right.label else link.left.label

end RowLink

/-- A condition about a row. -/
inductive Clause where
  /-- A truth value that was found without asking the database. It becomes a clause when it is used
  as a part of one. -/
  | verdict (b : Bool)
  | constant (b : Bool)
  | compare (c : Comparison) (column : ColumnRef) (value : Value)
  | isNull (negated : Bool) (column : ColumnRef)
  | among (negated : Bool) (column : ColumnRef) (values : List Value)
  | like (negated : Bool) (column : ColumnRef) (place : Place) (part : String)
  /-- The column's text and the value differ in letter case only. -/
  | caselessLike (negated : Bool) (column : ColumnRef) (value : Value)
  | joined (k : Connective) (parts : List Clause)
  /-- What is left of joined clauses when only one of them counts. -/
  | settled (c : Clause)
  | negation (c : Clause)
  /-- Some row that is linked to this one satisfies a condition. -/
  | related (link : RowLink) (condition : Clause)
  deriving Inhabited

namespace Clause

/-- A truth value as a clause. -/
def asPart : Clause → Clause
  | verdict b => constant b
  | c => c

/-- The constant that changes nothing among clauses that are joined in a way. -/
def neutral : Connective → Bool
  | .and => true
  | .or => false

/-- Whether a clause is a certain constant. -/
def isConstant (b : Bool) : Clause → Bool
  | constant c => b == c
  | _ => false

/-- The parts of a clause, if it is joined in a way; else itself. -/
def partsOf (k : Connective) : Clause → List Clause
  | joined l parts => if k = l then parts else [joined l parts]
  | c => [c]

/-- A clause that stands alone in the place of joined ones. Constants stay from then on, and a
pattern is kept apart from what surrounds it. -/
def settle : Clause → Clause
  | constant b => settled (constant b)
  | like n c place part => settled (like n c place part)
  | c => c

/-- Two or more clauses joined. -/
def combine (k : Connective) (clauses : List Clause) : Clause :=
  let parts := clauses.map asPart
  -- one false part decides a conjunction, one true part a disjunction
  if parts.any (isConstant !(neutral k)) then settled (constant !(neutral k))
  else
    match parts.filter fun c => !isConstant (neutral k) c with
    | [] => settled (constant (neutral k))
    | [c] => settle c
    -- parts that are joined in the same way become parts of the whole
    | several => joined k (several.flatMap (partsOf k))

/-- Any number of clauses joined: none are the neutral constant, and one stands for itself. -/
def joinAll (k : Connective) : List Clause → Clause
  | [] => constant (neutral k)
  | [c] => c
  | several => combine k several

mutual

/-- Whether all values in a clause have literal forms. -/
def isWritable : Clause → Bool
  | compare _ column _ | like _ column _ _ | caselessLike _ column _ => column.hasLiterals
  | among _ column vs => vs.isEmpty || column.hasLiterals
  | joined _ parts => areWritable parts
  | settled c | negation c | related _ c => isWritable c
  | verdict _ | constant _ | isNull _ _ => true
termination_by structural c => c

/-- Whether all values in several clauses have literal forms. -/
def areWritable : List Clause → Bool
  | [] => true
  | c :: cs => isWritable c && areWritable cs
termination_by structural cs => cs

end

/-- The clause that holds when another one does not. -/
def negate : Clause → Clause
  | constant b | settled (constant b) => constant !b
  | compare c column v => compare c.negated column v
  | isNull n column => isNull (!n) column
  | among n column vs => among (!n) column vs
  | like n column place part => like (!n) column place part
  | caselessLike n column v => caselessLike (!n) column v
  | settled c => negation c
  -- joined and related clauses have no opposite test
  | c => negation c

end Clause
end RecordQuery.Sql
