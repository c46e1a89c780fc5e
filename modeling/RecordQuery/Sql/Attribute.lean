import RecordQuery.Condition
import RecordQuery.Schema.Read
import RecordQuery.Sql.Clause
import RecordQuery.Value.Compare

/-!
# Attributes of mapped types

What a member is for a database query: a column, a relation, or something that the database does
not know.

* `Attribute` is the kind of a member, `Schema.attributeAt` finds it;
* `Attribute.clause` tests a member;
* `Schema.link?` says how the rows of a relation are linked.
-/

namespace RecordQuery

namespace Sql

/-- A member as a database query sees it. -/
inductive Attribute where
  | column (ref : ColumnRef) (type : SqlType)
  /-- A row of another table, whose key is in a column. -/
  | one (key : ColumnRef)
  /-- The rows of another table that refer to this one. -/
  | many
  /-- A value of the class itself. -/
  | fixed (v : Value)
  /-- A computed property. -/
  | computed
  deriving Inhabited

end Sql

open Sql

namespace Schema

/-- The database name of the key of a table. -/
def keyLabel (t : Table) : String :=
  match t.column? Table.keyMember with
  | some c => c.label
  | none => Table.keyMember

/-- The database name of a column of a table, by its member. -/
def labelOf (t : Table) (member : String) : String :=
  match t.column? member with
  | some c => c.label
  | none => member

/-- How the rows of a relation are linked to the row of their owner. -/
def link? (s : Schema) (t : Table) (r : Relation) : Option RowLink :=
  (s.table? r.target).map fun target =>
    match r.link with
    | .toOne column =>
      ⟨target.name, t.name, ⟨target.name, keyLabel target, true⟩, ⟨t.name, labelOf t column, true⟩,
        false⟩
    | .toMany =>
      let reference := ((target.referenceTo? t.name).map Column.label).getD t.name
      ⟨target.name, t.name, ⟨t.name, keyLabel t, true⟩, ⟨target.name, reference, true⟩, true⟩

/-- A member that the table of its type does not hold. -/
def unmappedAttribute (s : Schema) (owner name : String) : Except Error Attribute :=
  if (s.propertiesOf owner).any fun p => p.name == name then .ok .computed
  else
    match s.classValue? owner name with
    | some v => .ok (.fixed v)
    | none => .error (.fault .missingMember)

/-- The attribute of a member of a named type. -/
def attributeOf (s : Schema) (owner name : String) : Except Error Attribute :=
  match s.table? owner with
  | none => s.unmappedAttribute owner name
  | some t =>
    match t.column? name, t.relation? name with
    | some c, _ => .ok (.column ⟨t.name, c.label, c.type != .opaqueType⟩ c.type)
    | none, some ⟨_, _, .toOne column⟩ => .ok (.one ⟨t.name, labelOf t column, true⟩)
    | none, some ⟨_, _, .toMany⟩ => .ok .many
    | none, none => s.unmappedAttribute owner name

/-- The attribute that a hop reads. -/
def attributeAt (s : Schema) (hop : Hop) : Except Error Attribute :=
  match hop.owner with
  | .named owner => s.attributeOf owner hop.name
  | _ => .error (.fault .missingMember)

/-- The link that a hop follows. -/
def linkOf? (s : Schema) (hop : Hop) : Option RowLink :=
  match hop.owner with
  | .named owner =>
    match s.table? owner with
    | some t => (t.relation? hop.name).bind (s.link? t)
    | none => none
  | _ => none

end Schema

namespace Sql

/-- A meaning of an operator in clauses. -/
inductive ClauseStrategy where
  | usual (operator : Operator)
  /-- Equality of texts without regard to letter case. -/
  | caselessEqual
  deriving DecidableEq, Repr

namespace Attribute

/-- The column of a test of a value as a whole: columns without a type of their own take the type of
the value, and there is none for a member of an enumeration. -/
def refFor (ref : ColumnRef) (type : SqlType) (v : Value) : ColumnRef :=
  match type, v with
  | .structured, .member _ _ _ _ => { ref with hasLiterals := false }
  | _, _ => ref

/-- The value of a test: where the column holds no members of an enumeration, a member that is a
text is that text. -/
def valueFor (type : SqlType) (v : Value) : Value :=
  match type, v with
  | .enumeration _, v => v
  | _, .member .text _ _ (.text s) => .text s
  | _, v => v

/-- Equality with a value. Null is tested on its own, and a row that may be missing is tested by the
column with its key. -/
def equals (v : Value) : Attribute → Except Fault Clause
  | column ref type =>
    .ok (if v.isNull then .isNull false ref else .compare .eq (refFor ref type v) (valueFor type v))
  | one key => if v.isNull then .ok (.isNull false key) else .error .unsupported
  | many => .error .notImplemented
  | fixed w => (w.eq v).map .verdict
  | computed => .ok (.verdict false)

/-- Whether a value has no order in clauses. -/
def isUnordered : Value → Bool
  | .null | .bool _ => true
  | _ => false

/-- A comparison with a value, and the test that a value of the class itself has to pass. -/
def compares (c : Comparison) (t : OrderTest) (v : Value) : Attribute → Except Fault Clause
  | column ref type =>
    if isUnordered v then .error .invalidClause
    else .ok (.compare c (refFor ref type v) (valueFor type v))
  | one _ | many => .error .notImplemented
  | fixed w => (w.orders t v).map .verdict
  | computed => .error .unsupported

/-- Membership in a list of values. -/
def isAmong (vs : List Value) : Attribute → Except Fault Clause
  | column ref _ => .ok (.among false ref vs)
  | one _ | many => .error .notImplemented
  | fixed _ | computed => .error .missingMember

/-- A text in a place of a column's text. -/
def hasPart (place : Place) (v : Value) : Attribute → Except Fault Clause
  | column ref type =>
    match v.asText?, type with
    | some _, .array => .error .notImplemented
    | some s, _ => .ok (.like false ref place s)
    | none, _ => .error .unsupported
  | one _ | many => .error .unsupported
  | fixed (.text _) | fixed (.bytes _) =>
    .error (if place = .anywhere then .missingMember else .unsupported)
  | fixed _ | computed => .error .missingMember

/-- Whether the member contains a value, or is one of several values. -/
def contains (v : Value) (a : Attribute) : Except Fault Clause :=
  match v with
  -- several values were given, so membership is meant
  | .list vs => a.isAmong vs
  | v => a.hasPart .anywhere v

/-- A test of the member by an operator, in the operator's usual meaning. -/
def usualClause (a : Attribute) (v : Value) : Operator → Except Fault Clause
  | .eq => a.equals v
  | .neq => (a.equals v).map fun
    | .verdict b => .verdict !b
    | c => c.negate
  | .gt => a.compares .gt .gt v
  | .gte => a.compares .ge .ge v
  | .lt => a.compares .lt .lt v
  | .lte => a.compares .le .le v
  | .ct => a.contains v
  | .nct => (a.contains v).map Clause.negate
  | .sw => a.hasPart .start v
  | .ew => a.hasPart .finish v
  | .isIn =>
    match v with
    | .list vs => a.isAmong vs
    | _ => .error .invalidClause

/-- Equality of texts without regard to letter case. -/
def caselessEquals (v : Value) : Attribute → Except Fault Clause
  | column ref type =>
    if isUnordered v then .error .invalidClause
    else .ok (.caselessLike false (refFor ref type v) (valueFor type v))
  | one _ | many => .error .notImplemented
  | fixed _ | computed => .error .missingMember

/-- A test of the member by a strategy. -/
def clause (a : Attribute) (strategy : ClauseStrategy) (v : Value) : Except Fault Clause :=
  match strategy with
  | .usual operator => a.usualClause v operator
  | .caselessEqual => a.caselessEquals v

end Attribute
end Sql
end RecordQuery
